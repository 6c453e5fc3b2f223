import Gearsdk.Http3Server.Answers
import Gearsdk.Paging
import Mathlib.Data.List.Nodup

/-! The loops of the Redis client as loops over pages, and what they report of a
database that stays as it is while they run. -/
namespace Gearsdk.Http3Server
open Std Qstring Paging

abbrev HscanReply := RedisReply (Nat × Fields)

/-- With the replies to the `HGETALL` of each key. -/
abbrev ScanReply := RedisReply (Nat × List (Qstring × RedisReply Fields))

/-- The loop of `iterate_hash`. -/
def hashLoop : Loop HscanReply Fault (Qstring × Qstring) where
  page
    | .array (cursor, fields) => some (cursor, .ok fields)
    | _ => none
  otherwise
    | _, .null => .failed .nullDereference
    | _, _ => .ended []

/-- The loop of `scan`. -/
def scanLoop : Loop ScanReply Fault (Qstring × Qstring × Qstring) where
  page
    | .array (cursor, keys) => some (cursor, hgetallKeys keys)
    | _ => none
  otherwise
    | _, .null => .failed .nullDereference
    | cursor, _ => if cursor = 0 then .ended [] else .running cursor []

theorem followed_page (next : Nat) (items : List α) (later : Nat → Except Fault (List α)) :
    (if next = 0 then Outcome.ended items else .running next items).followed later =
      if next = 0 then .ok items else do
        let rest ← later next
        return items ++ rest := by
  split
  · rfl
  · rw [Outcome.followed]
    cases later next <;> rfl

theorem hscan_eq (replies : List HscanReply) : hscan replies = (hashLoop.run replies).result := by
  refine (Loop.run_result (f := fun _ => hscan) (fun _ => rfl) fun cursor reply replies => ?_).symm
  cases reply with
  | null => rfl
  | other => rfl
  | array page => exact (followed_page page.1 page.2 fun _ => hscan replies).symm

theorem scanFrom_eq (replies : List ScanReply) :
    scanFrom 0 replies = (scanLoop.run replies).result := by
  refine (Loop.run_result (f := scanFrom) (fun _ => rfl) fun cursor reply replies => ?_).symm
  cases reply with
  | null => rfl
  | other =>
    simp only [scanFrom, Loop.round, scanLoop]
    split
    · rfl
    · rw [Outcome.followed]
      cases scanFrom cursor replies <;> rfl
  | array page =>
    simp only [scanFrom, Loop.round, scanLoop]
    cases hgetallKeys page.2 with
    | error fault => rfl
    | ok items => exact (followed_page page.1 items fun next => scanFrom next replies).symm

/-! ### Replies of a database that stays as it is -/

/-- A hash has one value for each field. -/
structure Hash where
  fields : Fields
  distinct : (fields.map Prod.fst).Nodup

/-- The hashes at the keys that match. A hash without fields is not stored. -/
structure Keyspace where
  hashes : List (Qstring × Hash)
  distinct : (hashes.map Prod.fst).Nodup
  filled : ∀ entry ∈ hashes, entry.2.fields ≠ []

/-- A hash as `scan` is to report it. -/
def keyed (key : Qstring) (fields : Fields) : List (Qstring × Qstring × Qstring) :=
  fields.map fun field => (key, field.1, field.2)

def Keyspace.fields (keyspace : Keyspace) : List (Qstring × Qstring × Qstring) :=
  keyspace.hashes.flatMap fun entry => keyed entry.1 entry.2.fields

/-- The fields in the pages of `iterate_hash`. -/
def pageFields (replies : List HscanReply) : Fields :=
  replies.flatMap fun
    | .array (_, fields) => fields
    | _ => []

/-- The keys in the pages of `scan`, each with the reply to its `HGETALL`. -/
def pageKeys (replies : List ScanReply) : List (Qstring × RedisReply Fields) :=
  replies.flatMap fun
    | .array (_, keys) => keys
    | _ => []

/-- A full iteration returns every field that is there all the time. -/
structure Hash.Scanned (hash : Hash) (replies : List HscanReply) : Prop where
  whole : ∃ items, hashLoop.Completes replies items
  covers : ∀ field, field ∈ pageFields replies ↔ field ∈ hash.fields

/-- The reply to `HGETALL`. The key may be that of something else. -/
def Keyspace.Answers (keyspace : Keyspace) (key : Qstring) : RedisReply Fields → Prop
  | .null => False
  | .array fields => ∃ hash, (key, hash) ∈ keyspace.hashes ∧ fields.Perm hash.fields
  | .other => key ∉ keyspace.hashes.map Prod.fst

structure Keyspace.Scanned (keyspace : Keyspace) (replies : List ScanReply) : Prop where
  whole : ∃ items, scanLoop.Completes replies items
  answers : ∀ entry ∈ pageKeys replies, keyspace.Answers entry.1 entry.2
  covers : ∀ entry ∈ keyspace.hashes, entry.1 ∈ (pageKeys replies).map Prod.fst

/-- The loop of `iterate_hash` does with these replies what it is for. -/
structure Hash.Iterated (hash : Hash) (replies : List HscanReply) : Prop where
  terminates : hashLoop.Terminates replies
  once : hash.Scanned replies → ∃ reported, hashLoop.run replies = .ended reported ∧
    reported.Perm hash.fields

structure Keyspace.Iterated (keyspace : Keyspace) (replies : List ScanReply) : Prop where
  terminates : scanLoop.Terminates replies
  once : keyspace.Scanned replies → ∃ reported, scanLoop.run replies = .ended reported ∧
    reported.Perm keyspace.fields

/-- No command of `iterate_hash` is left without a reply, and no page of a full
iteration repeats a field. -/
structure Hash.Conforming (hash : Hash) (replies : List HscanReply) : Prop where
  replied : ∀ front reply, front ++ [reply] <+: replies →
    (∀ earlier ∈ front, ¬ hashLoop.Last earlier) → reply ≠ .null
  unrepeated : hash.Scanned replies → (pageFields replies).Nodup

/-- The key, if it holds a hash. -/
def hashKey (entry : Qstring × RedisReply Fields) : Option Qstring :=
  match entry.2 with
  | .array _ => some entry.1
  | _ => none

/-- What a reply to `SCAN` may be: only the first one may be no array. -/
def ScanServed (front : List ScanReply) : ScanReply → Prop
  | .null => False
  | .other => front = []
  | .array (_, keys) => ∀ key ∈ keys, key.2 ≠ .null

structure Keyspace.Conforming (keyspace : Keyspace) (replies : List ScanReply) : Prop where
  replied : ∀ front reply, front ++ [reply] <+: replies →
    (∀ earlier ∈ front, ¬ scanLoop.Last earlier) → ScanServed front reply
  unrepeated : keyspace.Scanned replies → ((pageKeys replies).filterMap hashKey).Nodup

theorem Hash.nodup (hash : Hash) : hash.fields.Nodup := hash.distinct.of_map Prod.fst

theorem good_hashLoop (front : List HscanReply) (reply : HscanReply) :
    hashLoop.Good front reply ↔ reply ≠ .null := by
  rw [Loop.Good]
  cases reply with
  | null => simp [hashLoop]
  | other => simp [hashLoop]
  | array page => simp [hashLoop]

theorem page_hashLoop {reply : HscanReply} (paged : hashLoop.page reply = some (next, .ok items)) :
    reply = .array (next, items) := by
  match reply with
  | .array (cursor, fields) =>
    cases paged
    rfl

theorem completes_hashLoop {replies : List HscanReply}
    (completes : hashLoop.Completes replies items) :
    items = pageFields replies := by
  induction completes with
  | final last =>
    rw [page_hashLoop last]
    exact (List.append_nil _).symm
  | page more goesOn rest ih =>
    rw [page_hashLoop more, ih]
    rfl

theorem Hash.iterated_iff (hash : Hash) (replies : List HscanReply) :
    hash.Iterated replies ↔ hash.Conforming replies := by
  have terminates : hashLoop.Terminates replies ↔
      ∀ front reply, front ++ [reply] <+: replies → (∀ earlier ∈ front, ¬ hashLoop.Last earlier) →
        reply ≠ .null := by
    rw [Loop.terminates_iff, Loop.Served]
    simp only [good_hashLoop]
  have once (scanned : hash.Scanned replies) :
      (∃ reported, hashLoop.run replies = .ended reported ∧ reported.Perm hash.fields) ↔
        (pageFields replies).Nodup := by
    obtain ⟨items, completes⟩ := scanned.whole
    rw [completes.run, ← perm_iff_nodup hash.nodup scanned.covers, completes_hashLoop completes]
    simp
  exact ⟨fun iterated => ⟨terminates.mp iterated.terminates, fun scanned =>
    (once scanned).mp (iterated.once scanned)⟩,
    fun conforming => ⟨terminates.mpr conforming.replied, fun scanned =>
      (once scanned).mpr (conforming.unrepeated scanned)⟩⟩

theorem page_scanLoop {reply : ScanReply} (paged : scanLoop.page reply = some (next, content)) :
    ∃ keys, reply = .array (next, keys) ∧ hgetallKeys keys = content := by
  match reply with
  | .array (cursor, keys) =>
    cases paged
    exact ⟨keys, rfl, rfl⟩

/-- An error ends the loop only in the first round. -/
theorem error_scanLoop (cursor : Nat) : (∃ items, scanLoop.otherwise cursor .other = .ended items) ↔
    cursor = 0 := by
  have error : scanLoop.otherwise cursor .other = if cursor = 0 then .ended []
    else .running cursor [] := rfl
  rw [error]
  split
  · rename_i first
    exact iff_of_true ⟨[], rfl⟩ first
  · rename_i later
    exact iff_of_false (fun ⟨items, ended⟩ => absurd ended (by simp)) later

theorem good_scanLoop {front : List ScanReply} (pages : ∀ earlier ∈ front, ¬ scanLoop.Last earlier)
    (reply : ScanReply) :
    scanLoop.Good front reply ↔ ScanServed front reply := by
  cases reply with
  | null =>
    refine iff_of_false ?_ id
    rintro ⟨items, failed⟩
    contradiction
  | other =>
    rw [ScanServed, ← Loop.cursorAfter_eq_zero_iff pages]
    exact error_scanLoop _
  | array page => exact returns_hgetallKeys page.2

/-- What is reported of one key. -/
def answered (entry : Qstring × RedisReply Fields) : List (Qstring × Qstring × Qstring) :=
  match entry.2 with
  | .array fields => keyed entry.1 fields
  | _ => []

theorem hgetallKeys_ok {keys : List (Qstring × RedisReply Fields)}
    (read : hgetallKeys keys = .ok items) :
    items = keys.flatMap answered := by
  induction keys generalizing items with
  | nil => exact (Except.ok.inj read).symm
  | cons entry keys ih =>
    obtain ⟨key, reply⟩ := entry
    rw [hgetallKeys] at read
    cases got : hgetall reply with
    | error fault =>
      rw [got] at read
      contradiction
    | ok fields =>
      cases rest : hgetallKeys keys with
      | error fault =>
        rw [got, rest] at read
        contradiction
      | ok later =>
        rw [got, rest] at read
        cases Except.ok.inj read
        rw [List.flatMap_cons, ← ih rest]
        refine congrArg (· ++ later) ?_
        cases reply with
        | null => contradiction
        | array held =>
          cases Except.ok.inj got
          rfl
        | other =>
          cases Except.ok.inj got
          rfl

theorem completes_scanLoop {replies : List ScanReply}
    (completes : scanLoop.Completes replies items) :
    items = (pageKeys replies).flatMap answered := by
  induction completes with
  | final last =>
    obtain ⟨keys, rfl, read⟩ := page_scanLoop last
    rw [hgetallKeys_ok read]
    exact congrArg (List.flatMap answered) (List.append_nil keys).symm
  | page more goesOn rest ih =>
    obtain ⟨keys, rfl, read⟩ := page_scanLoop more
    rw [hgetallKeys_ok read, ih, ← List.flatMap_append]
    rfl

theorem mem_keyed {entry : Qstring × Qstring × Qstring} :
    entry ∈ keyed key fields ↔ entry.1 = key ∧ entry.2 ∈ fields := by
  rw [keyed, List.mem_map]
  constructor
  · rintro ⟨field, member, rfl⟩
    exact ⟨rfl, member⟩
  · rintro ⟨rfl, member⟩
    exact ⟨entry.2, member, rfl⟩

namespace Keyspace
variable {keyspace : Keyspace} {replies : List ScanReply}

theorem hash_unique {key : Qstring} {hash other : Hash} (first : (key, hash) ∈ keyspace.hashes)
    (second : (key, other) ∈ keyspace.hashes) : hash = other :=
  (Prod.mk.inj (List.inj_on_of_nodup_map keyspace.distinct first second rfl)).2

theorem nodup_keyed (hash : Hash) (key : Qstring) : (keyed key hash.fields).Nodup :=
  hash.nodup.map fun _ _ same => (Prod.mk.inj same).2

theorem nodup_fields (keyspace : Keyspace) : keyspace.fields.Nodup := by
  rw [Keyspace.fields, List.nodup_flatMap]
  refine ⟨fun entry _ => nodup_keyed entry.2 entry.1, ?_⟩
  refine (List.pairwise_map.mp keyspace.distinct).imp fun {first second} different => ?_
  intro field inFirst inSecond
  exact different ((mem_keyed.mp inFirst).1.symm.trans (mem_keyed.mp inSecond).1)

/-- What is reported of the keys is what is there, when all keys are. -/
theorem Scanned.mem_answered (scanned : keyspace.Scanned replies)
    (field : Qstring × Qstring × Qstring) :
    field ∈ (pageKeys replies).flatMap answered ↔ field ∈ keyspace.fields := by
  rw [Keyspace.fields, List.mem_flatMap, List.mem_flatMap]
  constructor
  · rintro ⟨⟨key, reply⟩, listed, reported⟩
    have answers := scanned.answers _ listed
    match reply with
    | .array fields =>
      obtain ⟨hash, stored, perm⟩ := answers
      obtain ⟨same, member⟩ := mem_keyed.mp reported
      exact ⟨(key, hash), stored, mem_keyed.mpr ⟨same, perm.mem_iff.mp member⟩⟩
    | .other => exact absurd reported List.not_mem_nil
  · rintro ⟨⟨key, hash⟩, stored, member⟩
    obtain ⟨⟨listed, reply⟩, inside, rfl⟩ := List.mem_map.mp (scanned.covers _ stored)
    have answers := scanned.answers _ inside
    match reply with
    | .array fields =>
      obtain ⟨other, stored', perm⟩ := answers
      cases hash_unique stored stored'
      obtain ⟨same, member⟩ := mem_keyed.mp member
      exact ⟨_, inside, mem_keyed.mpr ⟨same, perm.mem_iff.mpr member⟩⟩
    | .other => exact absurd (List.mem_map.mpr ⟨_, stored, rfl⟩) answers

/-- What is reported of two keys is apart just when they are not one key of a hash. -/
theorem disjoint_answered {first second : Qstring × RedisReply Fields}
    (one : keyspace.Answers first.1 first.2) (two : keyspace.Answers second.1 second.2) :
    List.Disjoint (answered first) (answered second) ↔ ∀ a, hashKey first = some a →
      ∀ b, hashKey second = some b → a ≠ b := by
  obtain ⟨key, reply⟩ := first
  obtain ⟨key', reply'⟩ := second
  match reply, reply' with
  | .other, _ =>
    exact iff_of_true (List.disjoint_nil_left _) fun a held => absurd held (by simp [hashKey])
  | .array _, .other =>
    exact iff_of_true (List.disjoint_nil_right _) fun a _ b held =>
      absurd held (by simp [hashKey])
  | .array fields, .array fields' =>
    obtain ⟨hash, stored, perm⟩ := one
    obtain ⟨other, stored', perm'⟩ := two
    have keys : (∀ a, hashKey (key, .array fields) = some a →
      ∀ b, hashKey (key', .array fields') = some b → a ≠ b) ↔
        key ≠ key' := by
      simp [hashKey]
    rw [keys]
    constructor
    · -- one key of a hash has a field that is reported twice
      rintro disjoint rfl
      cases hash_unique stored stored'
      obtain ⟨field, member⟩ := List.exists_mem_of_ne_nil _ (keyspace.filled _ stored)
      exact disjoint (mem_keyed.mpr ⟨rfl, perm.mem_iff.mpr member⟩ : (key, field) ∈ _)
        (mem_keyed.mpr ⟨rfl, perm'.mem_iff.mpr member⟩)
    · intro different field inFirst inSecond
      exact different ((mem_keyed.mp inFirst).1.symm.trans (mem_keyed.mp inSecond).1)

theorem nodup_answered {entry : Qstring × RedisReply Fields}
    (answers : keyspace.Answers entry.1 entry.2) :
    (answered entry).Nodup := by
  obtain ⟨key, reply⟩ := entry
  match reply with
  | .array fields =>
    obtain ⟨hash, stored, perm⟩ := answers
    have same : (keyed key fields).Perm (keyed key hash.fields) := perm.map _
    exact same.nodup_iff.mpr (nodup_keyed hash key)
  | .other => exact List.nodup_nil

theorem Scanned.nodup_iff (scanned : keyspace.Scanned replies) :
    ((pageKeys replies).flatMap answered).Nodup ↔ ((pageKeys replies).filterMap hashKey).Nodup := by
  rw [List.nodup_flatMap, List.nodup_iff_pairwise_ne, List.pairwise_filterMap,
    and_iff_right fun entry listed => nodup_answered (scanned.answers entry listed)]
  exact List.Pairwise.iff_of_mem fun first second =>
    disjoint_answered (scanned.answers _ first) (scanned.answers _ second)

theorem iterated_iff (keyspace : Keyspace) (replies : List ScanReply) :
    keyspace.Iterated replies ↔ keyspace.Conforming replies := by
  have terminates : scanLoop.Terminates replies ↔ ∀ front reply, front ++ [reply] <+: replies →
      (∀ earlier ∈ front, ¬ scanLoop.Last earlier) → ScanServed front reply := by
    rw [Loop.terminates_iff]
    exact forall₄_congr fun front reply _ pages => good_scanLoop pages reply
  have once (scanned : keyspace.Scanned replies) :
      (∃ reported, scanLoop.run replies = .ended reported ∧ reported.Perm keyspace.fields) ↔
        ((pageKeys replies).filterMap hashKey).Nodup := by
    obtain ⟨items, completes⟩ := scanned.whole
    rw [completes.run, ← scanned.nodup_iff,
      ← perm_iff_nodup keyspace.nodup_fields scanned.mem_answered, completes_scanLoop completes]
    simp
  exact ⟨fun iterated => ⟨terminates.mp iterated.terminates, fun scanned =>
    (once scanned).mp (iterated.once scanned)⟩,
    fun conforming => ⟨terminates.mpr conforming.replied, fun scanned =>
      (once scanned).mpr (conforming.unrepeated scanned)⟩⟩

end Keyspace

def Keyspace.empty : Keyspace where
  hashes := []
  distinct := List.nodup_nil
  filled _ member := absurd member List.not_mem_nil

theorem getD_pushBack_all (entries : List (Qstring × Qstring × Qstring))
    (gservers : ExtTreeMap Qstring (List Qstring)) (addr : Qstring) :
    (entries.foldl (fun gservers entry =>
      ResMsgGservers.pushBack gservers (cString entry.1) (cString entry.2.2))
        gservers).getD addr [] =
      gservers.getD addr [] ++ (entries.filter fun entry => cString entry.1 = addr).map fun entry =>
        cString entry.2.2 := by
  induction entries generalizing gservers with
  | nil => exact (List.append_nil _).symm
  | cons entry entries ih =>
    rw [List.foldl_cons, ih, ResMsgGservers.pushBack, ExtTreeMap.getD_insert]
    by_cases same : cString entry.1 = addr
    · subst same
      simp
    · simp [same]

/-- Each address has the values of its hashes, where the loop does what it is for. -/
theorem getGservers_lists (s : Http3SampleServer) (connected : s.context = true)
    (keyspace : Keyspace) (iterated : keyspace.Iterated s.scanReplies)
    (scanned : keyspace.Scanned s.scanReplies) :
    ∃ msg, s.getGservers = .ok msg ∧ ∀ addr, (msg.gservers.getD addr []).Perm
      ((keyspace.fields.filter fun entry => cString entry.1 = addr).map fun entry =>
        cString entry.2.2) := by
  obtain ⟨reported, ended, perm⟩ := iterated.once scanned
  have listed : scan s.context s.scanReplies = .ok reported := by
    rw [scan, if_pos connected, scanFrom_eq, ended]
    rfl
  refine ⟨_, by rw [Http3SampleServer.getGservers, listed]; rfl, fun addr => ?_⟩
  rw [getD_pushBack_all]
  exact (perm.filter _).map _

end Gearsdk.Http3Server
