import Gearsdk.Javascript.Properties
import Gearsdk.Paging.Servers

/-! The two loops of the script that go through what a Redis server holds: `iterate_hash` and
`scan`. A cursor is known by its number, which the server writes in decimal. -/
namespace Gearsdk.QhiredisTs
open Javascript Paging Utf16

/-- What a command comes to. None is given where the client is null. -/
inductive Reply (α : Type) where
  | noClient
  | rejected
  | resolved (value : α)

/-- The replies to the commands that are given in a round. -/
structure Commands where
  hscan : (round : Nat) → (hashKey : Text) → (cursor : Nat) → Reply (Nat × List Text)
  scan : (round : Nat) → (cursor : Nat) → (pattern : Text) → Reply (Nat × List Text)
  hgetall : (round : Nat) → (key : Text) → Reply Value

/-- The callbacks for the results of a page, of which two are a field and its value. -/
def pairs : List Text → List (Text × Value)
  | [] => []
  | [field] => [(field, .undefined)]
  | field :: value :: rest => (field, .string value) :: pairs rest

/-- The cursor of the loop is a constant. -/
def iterateHashRound (cursor : Nat) : Reply (Nat × List Text) → Outcome Unit (Text × Value)
  | .noClient => .ended []
  | .rejected => .failed ()
  | .resolved (newCursor, results) => if newCursor = 0 then .ended (pairs results)
    else .running cursor (pairs results)

/-- `iterate_hash`, with the calls of the callback. -/
def iterateHash (commands : Commands) (hashKey : Text) :
    (rounds : Nat) → Outcome Unit (Text × Value) :=
  play iterateHashRound fun round cursor => commands.hscan round hashKey cursor

/-- The keys of a page, one after the other. -/
def readKeys (hgetall : Text → Reply Value) (newCursor : Nat) :
    List Text → Outcome Unit (Text × Text × Value)
  | [] => if newCursor = 0 then .ended [] else .running newCursor []
  | key :: rest =>
      match hgetall key with
      | .noClient => .ended []
      | .rejected => .failed ()
      | .resolved hashContent =>
        (readKeys hgetall newCursor rest).after (hashContent.entries.map fun entry => (key, entry))

def scanRound (_ : Nat) :
    Reply (Nat × List Text) × (Text → Reply Value) → Outcome Unit (Text × Text × Value)
  | (.noClient, _) => .ended []
  | (.rejected, _) => .failed ()
  | (.resolved (newCursor, keys), hgetall) => readKeys hgetall newCursor keys

def pattern (prefixKey : Text) : Text := prefixKey ++ units ":*"

/-- `scan`, with the calls of the callback. -/
def scan (commands : Commands) (prefixKey : Text) :
    (rounds : Nat) → Outcome Unit (Text × Text × Value) :=
  play scanRound fun round cursor =>
    (commands.scan round cursor (pattern prefixKey), commands.hgetall round)

/-! ### A server -/

inductive Stored where
  | hash (fields : List (Text × Text))
  | other

structure Keyspace where
  entries : List (Text × Stored)
  distinct : (entries.map Prod.fst).Nodup

structure Keyspace.Hash (keyspace : Keyspace) where
  key : Text
  fields : List (Text × Text)
  stored : (key, .hash fields) ∈ keyspace.entries

/-- A server that answers correctly. Which keys a pattern matches is up to `glob`. -/
structure Server (glob : Text → Text → Bool) (keyspace : Keyspace) where
  hscan : Nat → Text → Nat → Nat × List (Text × Text)
  scan : Nat → Nat → Text → Nat × List Text
  hgetall : Nat → Text → Reply (List (Text × Text))
  hscan_complete : ∀ key fields, (key, .hash fields) ∈ keyspace.entries →
    Complete (fun round cursor => hscan round key cursor) (· ∈ fields)
  scan_complete : ∀ pattern, Complete (fun round cursor => scan round cursor pattern) fun key =>
    glob pattern key = true ∧ ∃ stored, (key, stored) ∈ keyspace.entries
  hgetall_hash : ∀ round key fields, (key, .hash fields) ∈ keyspace.entries →
    ∃ listed, hgetall round key = .resolved listed ∧ listed.Perm fields
  hgetall_other : ∀ round key, (key, .other) ∈ keyspace.entries → hgetall round key = .rejected

/-- The properties of the object that a hash is handed over as. -/
def properties (fields : List (Text × Text)) : List (Text × Value) :=
  fields.map fun field => (field.1, .string field.2)

def Reply.map (f : α → β) : Reply α → Reply β
  | .noClient => .noClient
  | .rejected => .rejected
  | .resolved value => .resolved (f value)

namespace Server
variable {glob : Text → Text → Bool} {keyspace : Keyspace} (server : Server glob keyspace)

/-- The client is connected throughout. Fields and values take turns on a page. -/
def commands : Commands where
  hscan round hashKey cursor := .resolved ((server.hscan round hashKey cursor).1,
    (server.hscan round hashKey cursor).2.flatMap fun field => [field.1, field.2])
  scan round cursor pattern := .resolved (server.scan round cursor pattern)
  hgetall round key := (server.hgetall round key).map fun fields => .object (properties fields)

/-- The loop ends, having called the callback for every field of the hash with its value. -/
def IteratesHash (hash : keyspace.Hash) : Prop :=
  ∃ rounds reported, iterateHash server.commands hash.key rounds = .ended reported ∧
    ∀ entry, entry ∈ reported ↔ ∃ field ∈ hash.fields, (field.1, .string field.2) = entry

/-- The loop ends, having called the callback for every field of every key that matches. -/
def Scans (prefixKey : Text) : Prop :=
  ∃ rounds reported, QhiredisTs.scan server.commands prefixKey rounds = .ended reported ∧
    ∀ entry, entry ∈ reported ↔ ∃ key fields, (key, .hash fields) ∈ keyspace.entries ∧
      glob (pattern prefixKey) key = true ∧
        ∃ field ∈ fields, (key, field.1, .string field.2) = entry

/-- Some page from cursor 0 is the whole hash. -/
def InOnePage (hash : keyspace.Hash) : Prop := ∃ round, (server.hscan round hash.key 0).1 = 0

end Server

/-- Every key that the prefix matches is of a hash. -/
def Keyspace.OnlyHashes (keyspace : Keyspace) (glob : Text → Text → Bool)
    (prefixKey : Text) : Prop :=
  ∀ key stored, (key, stored) ∈ keyspace.entries → glob (pattern prefixKey) key = true →
    stored ≠ .other

/-! ### Hashes -/

theorem pairs_flatMap (fields : List (Text × Text)) :
    pairs (fields.flatMap fun field => [field.1, field.2]) = properties fields := by
  induction fields with
  | nil => rfl
  | cons field rest ih => exact congrArg ((field.1, Value.string field.2) :: ·) ih

section
variable {glob : Text → Text → Bool} {keyspace : Keyspace} (server : Server glob keyspace)

theorem iteratesHash_iff (hash : keyspace.Hash) :
    server.IteratesHash hash ↔ server.InOnePage hash := by
  have named (round : Nat) (field : Text × Text) (_ : field ∈ hash.fields) (entry : Text × Value) :
      entry ∈ [(field.1, Value.string field.2)] ↔ (field.1, .string field.2) = entry :=
        List.mem_singleton.trans eq_comm
  have complete := (server.hscan_complete hash.key hash.fields hash.stored).translated named
  have rounds : iterateHash server.commands hash.key = play again (translated (fun round cursor =>
      server.hscan round hash.key cursor) fun _ field => [(field.1, Value.string field.2)]) := by
    refine play_congr fun round cursor => ?_
    rw [Server.commands, iterateHashRound, pairs_flatMap, properties, List.map_eq_flatMap]
    rfl
  rw [Server.IteratesHash, rounds]
  exact complete.again_iff

/-! ### Keys -/

/-- The callbacks for a key. -/
def answered (hgetall : Text → Reply Value) (key : Text) : List (Text × Text × Value) :=
  match hgetall key with
  | .resolved hashContent => hashContent.entries.map fun entry => (key, entry)
  | .noClient | .rejected => []

theorem readKeys_resolved {hgetall : Text → Reply Value}
    (resolved : ∀ key ∈ keys, ∃ content, hgetall key = .resolved content) (newCursor : Nat) :
    readKeys hgetall newCursor keys =
      if newCursor = 0 then .ended (keys.flatMap (answered hgetall))
        else .running newCursor (keys.flatMap (answered hgetall)) := by
  induction keys with
  | nil => rfl
  | cons key rest ih =>
    obtain ⟨⟨content, here⟩, later⟩ := List.forall_mem_cons.mp resolved
    have own : answered hgetall key = content.entries.map fun entry => (key, entry) := by
      rw [answered, here]
    rw [readKeys, here, ih later, List.flatMap_cons, own]
    by_cases last : newCursor = 0
    · rw [if_pos last, if_pos last]
      rfl
    · rw [if_neg last, if_neg last]
      rfl

theorem readKeys_rejected {hgetall : Text → Reply Value}
    (connected : ∀ key ∈ keys, hgetall key ≠ .noClient)
    (rejected : ∃ key ∈ keys, hgetall key = .rejected) (newCursor : Nat) :
    readKeys hgetall newCursor keys = .failed () := by
  induction keys with
  | nil =>
    obtain ⟨key, none, _⟩ := rejected
    exact absurd none List.not_mem_nil
  | cons key rest ih =>
    obtain ⟨here, later⟩ := List.forall_mem_cons.mp connected
    rw [readKeys]
    cases reply : hgetall key with
    | noClient => exact absurd reply here
    | rejected => rfl
    | resolved content =>
      obtain ⟨bad, inside, failed⟩ := rejected
      have behind : bad ∈ rest := by
        refine (List.mem_cons.mp inside).resolve_left ?_
        rintro rfl
        rw [failed] at reply
        cases reply
      rw [ih later ⟨bad, behind, failed⟩]
      rfl

/-- What is called for a key. -/
def Means (keyspace : Keyspace) (key : Text) (entry : Text × Text × Value) : Prop :=
  ∃ fields, (key, .hash fields) ∈ keyspace.entries ∧
    ∃ field ∈ fields, (key, field.1, .string field.2) = entry

theorem stored_unique {first second : Stored} (one : (key, first) ∈ keyspace.entries)
    (two : (key, second) ∈ keyspace.entries) :
    first = second :=
  (Prod.mk.inj (List.inj_on_of_nodup_map keyspace.distinct one two rfl)).2

theorem resolved_of_hash (round : Nat) (stored : (key, .hash fields) ∈ keyspace.entries) :
    ∃ content, server.commands.hgetall round key = .resolved content ∧
      ∀ entry, (entry ∈ content.entries ↔ ∃ field ∈ fields, (field.1, .string field.2) = entry) := by
  obtain ⟨listed, reply, perm⟩ := server.hgetall_hash round key fields stored
  refine ⟨.object (properties listed), congrArg (Reply.map _) reply, fun entry => ?_⟩
  rw [mem_entries, properties, List.mem_map]
  exact exists_congr fun field => and_congr_left fun _ => perm.mem_iff

theorem mem_answered (round : Nat) (stored : (key, .hash fields) ∈ keyspace.entries)
    (entry : Text × Text × Value) :
    entry ∈ answered (server.commands.hgetall round) key ↔ Means keyspace key entry := by
  obtain ⟨content, reply, properties⟩ := resolved_of_hash server round stored
  rw [answered, reply, List.mem_map]
  constructor
  · rintro ⟨property, inside, rfl⟩
    obtain ⟨field, there, rfl⟩ := (properties property).mp inside
    exact ⟨fields, stored, field, there, rfl⟩
  · rintro ⟨others, again, field, there, rfl⟩
    cases stored_unique stored again
    exact ⟨_, (properties _).mpr ⟨field, there, rfl⟩, rfl⟩

theorem rejected_of_other (round : Nat) (stored : (key, .other) ∈ keyspace.entries) :
    server.commands.hgetall round key = .rejected :=
  congrArg (Reply.map _) (server.hgetall_other round key stored)

/-- A round of `scan` on the page that the server gives. -/
theorem scanRound_commands (prefixKey : Text) (round cursor : Nat) :
    scanRound cursor (server.commands.scan round cursor (pattern prefixKey),
      server.commands.hgetall round) =
      readKeys (server.commands.hgetall round) (server.scan round cursor (pattern prefixKey)).1
        (server.scan round cursor (pattern prefixKey)).2 := rfl

theorem scans_of_onlyHashes (only : keyspace.OnlyHashes glob prefixKey) :
    server.Scans prefixKey := by
  have stored_hash (key : Text) (listed : glob (pattern prefixKey) key = true ∧ ∃ stored,
    (key, stored) ∈ keyspace.entries) :
      ∃ fields, (key, .hash fields) ∈ keyspace.entries := by
    obtain ⟨matched, stored, there⟩ := listed
    cases stored with
    | hash fields => exact ⟨fields, there⟩
    | other => exact absurd rfl (only key .other there matched)
  have called (round : Nat) (key : Text) (listed : glob (pattern prefixKey) key = true ∧ ∃ stored,
    (key, stored) ∈ keyspace.entries)
      (entry : Text × Text × Value) : entry ∈ answered (server.commands.hgetall round) key ↔
        Means keyspace key entry := by
    obtain ⟨fields, there⟩ := stored_hash key listed
    exact mem_answered server round there entry
  have complete := (server.scan_complete (pattern prefixKey)).translated called
  have rounds : QhiredisTs.scan server.commands prefixKey = play follow (translated (fun round cursor =>
      server.scan round cursor (pattern prefixKey)) fun round =>
        answered (server.commands.hgetall round)) := by
    refine play_congr fun round cursor => ?_
    rw [scanRound_commands, readKeys_resolved]
    · rfl
    · intro key listed
      obtain ⟨fields, there⟩ :=
        stored_hash key ((server.scan_complete (pattern prefixKey)).sound round cursor key listed)
      obtain ⟨content, reply, _⟩ := resolved_of_hash server round there
      exact ⟨content, reply⟩
  obtain ⟨n, reported, ended, exact_calls⟩ := complete.follow (F := Unit)
  refine ⟨n, reported, by rw [rounds]; exact ended, fun entry => (exact_calls entry).trans ?_⟩
  constructor
  · rintro ⟨key, ⟨matched, _⟩, fields, there, field, inside, same⟩
    exact ⟨key, fields, there, matched, field, inside, same⟩
  · rintro ⟨key, fields, there, matched, field, inside, same⟩
    exact ⟨key, ⟨matched, _, there⟩, fields, there, field, inside, same⟩

/-- A key of another type makes the loop fail. -/
theorem fails_of_other (prefixKey : Text) (there : (key, .other) ∈ keyspace.entries)
    (matched : glob (pattern prefixKey) key = true) :
    ∃ n fault, QhiredisTs.scan server.commands prefixKey n = .failed fault := by
  have complete := server.scan_complete (pattern prefixKey)
  obtain ⟨keys, iteration, covers⟩ := complete.ends 0
  have replies (round cursor : Nat) (key : Text)
    (listed : key ∈ (server.scan round cursor (pattern prefixKey)).2) :
      (key, .other) ∈ keyspace.entries ∧ server.commands.hgetall round key = .rejected ∨
        ∃ content, server.commands.hgetall round key = .resolved content := by
    obtain ⟨_, stored, there⟩ := complete.sound round cursor key listed
    cases stored with
    | hash fields =>
      obtain ⟨content, reply, _⟩ := resolved_of_hash server round there
      exact .inr ⟨content, reply⟩
    | other => exact .inl ⟨there, rejected_of_other server round there⟩
  have reached : ∃ key ∈ keys, (key, .other) ∈ keyspace.entries :=
    ⟨key, covers key ⟨matched, .other, there⟩, there⟩
  refine iteration.fails (fun round cursor bad => ⟨(), ?_⟩) (fun round cursor good more =>
    ⟨(server.scan round cursor (pattern prefixKey)).2.flatMap
      (answered (server.commands.hgetall round)), ?_⟩) reached rfl
  · obtain ⟨other, listed, there⟩ := bad
    rw [scanRound_commands]
    refine readKeys_rejected (fun key listed => ?_) ⟨other, listed,
      rejected_of_other server round there⟩ _
    rcases replies round cursor key listed with ⟨_, reply⟩ | ⟨content, reply⟩
    · rw [reply]
      rintro ⟨⟩
    · rw [reply]
      rintro ⟨⟩
  · rw [scanRound_commands, readKeys_resolved, if_neg more]
    intro key listed
    exact (replies round cursor key listed).resolve_left fun other => good key listed other.1

theorem scans_iff (prefixKey : Text) :
    server.Scans prefixKey ↔ keyspace.OnlyHashes glob prefixKey := by
  constructor
  · rintro ⟨rounds, reported, ended, _⟩ key stored there matched rfl
    obtain ⟨n, fault, failed⟩ := fails_of_other server prefixKey there matched
    exact not_ended_of_failed failed rounds reported ended
  · exact scans_of_onlyHashes server

/-- The two loops end with all callbacks just when the hash is given in one page, and the prefix
matches keys of hashes only. -/
theorem loops_report_iff (hash : keyspace.Hash) (prefixKey : Text) :
    server.IteratesHash hash ∧ server.Scans prefixKey ↔
      server.InOnePage hash ∧ keyspace.OnlyHashes glob prefixKey :=
  and_congr (iteratesHash_iff server hash) (scans_iff server prefixKey)

end

/-! ### A hash on two pages -/

def twoFields : List (Text × Text) := [([97], [49]), ([98], [50])]

def oneHash : Keyspace := ⟨[([104], .hash twoFields)], List.nodup_singleton _⟩

theorem stored_oneHash :
    (key, stored) ∈ oneHash.entries ↔ key = [104] ∧ stored = .hash twoFields := by
  rw [oneHash, List.mem_singleton, Prod.mk.injEq]

/-- One field on a page. -/
def twoPages : Server (fun _ _ => true) oneHash where
  hscan _ _ cursor := if cursor = 0 then (1, [([97], [49])]) else (0, [([98], [50])])
  scan _ _ _ := (0, [[104]])
  hgetall _ _ := .resolved twoFields
  hscan_complete key fields stored := by
    obtain ⟨rfl, same⟩ := stored_oneHash.mp stored
    cases same
    refine ⟨fun round => ⟨[([97], [49])] ++ [([98], [50])], .more rfl Nat.one_ne_zero (.last rfl),
      fun _ => id⟩,
      fun round cursor item listed => ?_⟩
    by_cases first : cursor = 0
    · rw [if_pos first] at listed
      exact List.mem_cons.mpr (.inl (List.mem_singleton.mp listed))
    · rw [if_neg first] at listed
      exact List.mem_cons_of_mem _ listed
  scan_complete pattern := by
    refine ⟨fun round => ⟨[[104]], .last rfl, ?_⟩, fun round cursor key listed => ?_⟩
    · rintro key ⟨_, stored, there⟩
      exact List.mem_singleton.mpr (stored_oneHash.mp there).1
    · exact ⟨rfl, _, stored_oneHash.mpr ⟨List.mem_singleton.mp listed, rfl⟩⟩
  hgetall_hash round key fields stored := by
    obtain ⟨rfl, same⟩ := stored_oneHash.mp stored
    cases same
    exact ⟨twoFields, rfl, .refl _⟩
  hgetall_other round key stored := by
    cases (stored_oneHash.mp stored).2

/-- The loop reads the first page again and again. -/
theorem second_page_unread :
    ¬ ∀ glob keyspace (server : Server glob keyspace) (hash : keyspace.Hash) prefixKey,
    server.IteratesHash hash ∧ server.Scans prefixKey := by
  intro reports
  have both := reports _ _ twoPages ⟨[104], twoFields, stored_oneHash.mpr ⟨rfl, rfl⟩⟩ []
  obtain ⟨⟨round, last⟩, _⟩ := (loops_report_iff ..).mp both
  exact Nat.one_ne_zero last

end Gearsdk.QhiredisTs
