import Gearsdk.Http3Server
import Gearsdk.Trim

/-! The identity that the user servers derive from a device in `user_get`: the
checksum of its fields, one after the other, in hexadecimal. The scripts of the
plugin call the checksum by way of their bindings. -/
namespace Gearsdk
open Qstring

structure Device where
  sysName : String
  nodeName : String
  release : String
  arch : String
  clean : ∀ field ∈ [sysName, nodeName, release, arch], Clean (literal field)

structure Identity where
  pid : Qstring
  userName : Qstring
  deriving DecidableEq

def Device.fields (device : Device) : List Qstring :=
  [literal device.sysName, literal device.nodeName, literal device.release, literal device.arch]

/-- The message that a device sends. -/
def Device.message (device : Device) : RqMsgUserGet :=
  { sysName := literal device.sysName, nodeName := literal device.nodeName,
    release := literal device.release,
    arch := literal device.arch }

def Device.checksum (device : Device) : Nat := Crc32.checksum device.fields.flatten

theorem Device.checksum_lt (device : Device) : device.checksum < 2 ^ 32 := Crc32.checksum_lt _

theorem Device.checksum_eq (device : Device) :
    Crc32.continued (Crc32.continued (Crc32.continued (Crc32.continued 0 (literal device.sysName))
      (literal device.nodeName)) (literal device.release)) (literal device.arch) =
        device.checksum :=
  (Crc32.foldl_continued device.fields 0).trans (Crc32.continued_zero _)

namespace Http3SampleServer

def userGetCrc (msg : RqMsgUserGet) : Nat :=
  let crc := Crc32.continued 0 msg.sysName
  let crc := Crc32.continued crc msg.nodeName
  let crc := Crc32.continued crc msg.release
  Crc32.continued crc msg.arch

def identity (msg : RqMsgUserGet) : Identity :=
  { pid := hexadecimal (userGetCrc msg), userName := literal "guest-" ++ hexadecimal (userGetCrc msg) }

/-- The account that the handler asks for is that of the identity. -/
theorem parseUserGet_identity {s : Http3SampleServer} {request response answer : ConnIoReqRes}
    {msg : RqMsgUserGet} {actions : List Http3Server.Action}
    (parsed : MessageParser.parse s.tooBig RqMsgUserGet.deserialize request.data = some msg)
    (answered : s.parseUserGet request response = .ok (answer, actions)) :
    .findAndUpsert (identity msg).pid (identity msg).userName s.timeUtcReadable msg.sysName
      msg.nodeName msg.arch ∈ actions := by
  simp only [parseUserGet, parsed] at answered
  cases asserted : Http3Server.assertThat s.ndebug request.validate with
  | error fault => simp [asserted, bind, Except.bind] at answered
  | ok =>
    cases scanned : s.getGservers with
    | error fault => simp [asserted, scanned, bind, Except.bind] at answered
    | ok gservers =>
      simp only [asserted, scanned, bind, Except.bind] at answered
      split at answered
      · split at answered
        · contradiction
        · cases Except.ok.inj answered
          exact List.mem_cons_of_mem _ (List.mem_cons_self ..)
      · cases Except.ok.inj answered
        exact List.mem_cons_of_mem _ (List.mem_cons_self ..)

end Http3SampleServer

namespace ApiUserGet

/-- `mod_crc32` of the plugin; nothing stands for a null pointer. -/
def modCrc32 (adler : Nat) : Option Qstring → Nat
  | none => 0
  | some buf => Crc32.continued adler buf

namespace TypeScript

/-- The data of an empty buffer may be at no address. -/
def bufferFrom (null : Bool) (text : String) : Option Qstring :=
  if null ∧ literal text = [] then none else some (literal text)

/-- The binding takes the value as an unsigned integer of 32 bits. -/
def napiModCrc32 (adler : Nat) (buffer : Option Qstring) : Nat := modCrc32 (adler % 2 ^ 32) buffer

def crc (null : Nat → Bool) (device : Device) : Nat :=
  let crc := napiModCrc32 0 (bufferFrom (null 0) "")
  let crc := napiModCrc32 crc (bufferFrom (null 1) device.sysName)
  let crc := napiModCrc32 crc (bufferFrom (null 2) device.nodeName)
  let crc := napiModCrc32 crc (bufferFrom (null 3) device.release)
  napiModCrc32 crc (bufferFrom (null 4) device.arch)

def identity (null : Nat → Bool) (device : Device) : Identity :=
  { pid := hexadecimal (crc null device), userName := literal "guest-" ++ hexadecimal (crc null device) }

end TypeScript

namespace Lua

/-- A cast to `int` keeps the low 32 bits, the highest of them as the sign. -/
def castInt (n : Nat) : Int :=
  if n % 2 ^ 32 < 2 ^ 31 then (n % 2 ^ 32 : Nat) else (n % 2 ^ 32 : Nat) - 2 ^ 32

/-- `%x` prints a negative number as its two's complement in 64 bits. -/
def formatHex (n : Int) : Qstring := hexadecimal (n % 2 ^ 64).toNat

def crc (device : Device) : Int :=
  let nativeCrc := modCrc32 0 none
  let nativeCrc := modCrc32 nativeCrc (some (literal device.sysName))
  let nativeCrc := modCrc32 nativeCrc (some (literal device.nodeName))
  let nativeCrc := modCrc32 nativeCrc (some (literal device.release))
  let nativeCrc := modCrc32 nativeCrc (some (literal device.arch))
  castInt nativeCrc

def identity (device : Device) : Identity :=
  { pid := formatHex (crc device), userName := literal "guest-" ++ formatHex (crc device) }

end Lua

inductive Server where
  | cpp | typeScript | lua
  deriving DecidableEq

def identityOf (null : Nat → Bool) (device : Device) : Server → Option Identity
  | .cpp =>
    (RqMsgUserGet.deserialize (.object device.message.serialize)).map Http3SampleServer.identity
  | .typeScript => some (TypeScript.identity null device)
  | .lua => some (Lua.identity device)

/-! ### Numbers in hexadecimal -/

theorem digitChar_inj (a b : Nat) (small : a < 16) (small' : b < 16)
    (same : a.digitChar = b.digitChar) : a = b := by
  have table : ∀ a < 16, ∀ b < 16, a.digitChar = b.digitChar → a = b := by decide
  exact table a small b small' same

theorem toDigits_inj (same : Nat.toDigits 16 m = Nat.toDigits 16 n) : m = n := by
  induction m using Nat.strongRecOn generalizing n with
  | ind m ih =>
    rw [Nat.toDigits_eq_if (by decide), Nat.toDigits_eq_if (n := n) (by decide)] at same
    split at same <;> split at same
    · rename_i short short'
      exact digitChar_inj m n short short' (List.head_eq_of_cons_eq same)
    · have lengths := congrArg List.length same
      simp at lengths
    · have lengths := congrArg List.length same
      simp at lengths
    · obtain ⟨high, low⟩ := List.append_inj' same rfl
      have quotients := ih (m / 16) (by omega) high
      have remainders := digitChar_inj _ _ (Nat.mod_lt _ (by decide)) (Nat.mod_lt _ (by decide))
        (List.head_eq_of_cons_eq low)
      omega

theorem hexadecimal_inj : hexadecimal m = hexadecimal n ↔ m = n := by
  constructor
  · intro same
    exact toDigits_inj (String.ofList_injective (literal_inj.mp same))
  · rintro rfl
    rfl

/-- Two identities are the same just when their numbers are. -/
theorem identity_inj (m n : Nat) :
    (⟨hexadecimal m, literal "guest-" ++ hexadecimal m⟩ : Identity) =
      ⟨hexadecimal n, literal "guest-" ++ hexadecimal n⟩ ↔ m = n := by
  rw [Identity.mk.injEq, hexadecimal_inj, List.append_cancel_left_eq, hexadecimal_inj, and_self]

/-! ### The checksum of the fields -/

variable {device : Device} {null : Nat → Bool}

theorem deserialize_message (device : Device) :
    RqMsgUserGet.deserialize (.object device.message.serialize) = some device.message := by
  apply RqMsgUserGet.deserialize_serialize
  have clean := device.clean
  simp only [List.mem_cons, List.not_mem_nil, or_false, forall_eq_or_imp, forall_eq] at clean
  obtain ⟨sysName, nodeName, release, arch⟩ := clean
  have empty : Clean [] := List.forall_mem_nil _
  exact ⟨⟨empty, empty⟩, sysName, nodeName, release, arch⟩

theorem identityOf_cpp (null : Nat → Bool) (device : Device) : identityOf null device .cpp =
    some ⟨hexadecimal device.checksum, literal "guest-" ++ hexadecimal device.checksum⟩ := by
  rw [identityOf, deserialize_message, Option.map_some, Http3SampleServer.identity,
    Http3SampleServer.userGetCrc]
  simp only [Device.message, Device.checksum_eq]

theorem identityOf_lua (null : Nat → Bool) (device : Device) : identityOf null device .lua =
    some ⟨Lua.formatHex (Lua.castInt device.checksum),
      literal "guest-" ++ Lua.formatHex (Lua.castInt device.checksum)⟩ := by
  simp only [identityOf, Lua.identity, Lua.crc, modCrc32, Device.checksum_eq]

theorem Lua.castInt_eq (small : n < 2 ^ 32) : castInt n = if n < 2 ^ 31 then (n : Int)
    else n - 2 ^ 32 := by
  rw [castInt, Nat.mod_eq_of_lt small]

/-- The sign is printed unless the checksum has 31 bits. -/
theorem lua_agrees_iff (null : Nat → Bool) (device : Device) :
    identityOf null device .lua = identityOf null device .cpp ↔ device.checksum < 2 ^ 31 := by
  have small := device.checksum_lt
  rw [identityOf_lua, identityOf_cpp, Option.some.injEq, Lua.formatHex, identity_inj,
    Lua.castInt_eq small]
  split <;> omega

/-! ### Buffers without data -/

/-- The buffers of the fields. -/
def TypeScript.buffers (null : Nat → Bool) (device : Device) : List (Option Qstring) :=
  [bufferFrom (null 1) device.sysName, bufferFrom (null 2) device.nodeName,
    bufferFrom (null 3) device.release, bufferFrom (null 4) device.arch]

def TypeScript.bytes (buffers : List (Option Qstring)) : Qstring :=
  (buffers.map (·.getD [])).flatten

theorem TypeScript.napiModCrc32_eq {adler : Nat} (small : adler < 2 ^ 32)
    (buffer : Option Qstring) :
    napiModCrc32 adler buffer = modCrc32 adler buffer := by
  rw [napiModCrc32, Nat.mod_eq_of_lt small]

theorem modCrc32_lt {adler : Nat} (small : adler < 2 ^ 32) (buffer : Option Qstring) :
    modCrc32 adler buffer < 2 ^ 32 := by
  cases buffer with
  | none => exact Nat.two_pow_pos 32
  | some bytes => exact Crc32.continued_lt small bytes

theorem TypeScript.foldl_napiModCrc32 (calls : List (Option Qstring)) (small : adler < 2 ^ 32) :
    calls.foldl napiModCrc32 adler = calls.foldl modCrc32 adler := by
  induction calls generalizing adler with
  | nil => rfl
  | cons buffer calls ih =>
    rw [List.foldl_cons, List.foldl_cons, napiModCrc32_eq small, ih (modCrc32_lt small buffer)]

theorem TypeScript.crc_eq (null : Nat → Bool) (device : Device) :
    crc null device = (buffers null device).foldl modCrc32 0 := by
  have first : napiModCrc32 0 (bufferFrom (null 0) "") = 0 := by
    cases start : null 0 with
    | true => rfl
    | false => exact Crc32.continued_nil 0
  rw [crc, first, ← foldl_napiModCrc32 _ (Nat.two_pow_pos 32)]
  rfl

theorem TypeScript.bytes_bufferFrom (null : Bool) (text : String) :
    (bufferFrom null text).getD [] = literal text := by
  rw [bufferFrom]
  split
  · rename_i empty
    exact empty.2.symm
  · rfl

theorem TypeScript.bytes_buffers (null : Nat → Bool) (device : Device) :
    bytes (buffers null device) = device.fields.flatten := by
  simp only [bytes, buffers, List.map_cons, List.map_nil, bytes_bufferFrom, Device.fields]

/-- Where every buffer has data, the checksum is that of all bytes. -/
theorem TypeScript.foldl_data {calls : List (Option Qstring)} (present : none ∉ calls) (crc : Nat) :
    calls.foldl modCrc32 crc = Crc32.continued crc (bytes calls) := by
  induction calls generalizing crc with
  | nil => exact (Crc32.continued_nil crc).symm
  | cons buffer calls ih =>
    rw [List.mem_cons, not_or] at present
    obtain ⟨data, rfl⟩ := Option.ne_none_iff_exists'.mp (Ne.symm present.1)
    rw [List.foldl_cons, ih present.2, modCrc32, ← Crc32.continued_append]
    rfl

/-- A buffer without data starts the checksum again. -/
theorem TypeScript.foldl_null (absent : none ∉ after) (before : List (Option Qstring)) :
    (before ++ none :: after).foldl modCrc32 0 = Crc32.checksum (bytes (before ++ none :: after)) ↔
      Crc32.checksum (bytes before) = 0 := by
  have whole : bytes (before ++ none :: after) = bytes before ++ bytes after := by
    simp only [bytes, List.map_append, List.map_cons, List.flatten_append, List.flatten_cons,
      Option.getD_none, List.nil_append]
  rw [List.foldl_append, List.foldl_cons, modCrc32, foldl_data absent, whole,
    ← Crc32.continued_zero (_ ++ _), Crc32.continued_append,
    Crc32.continued_inj (Nat.two_pow_pos 32) (Crc32.continued_lt (Nat.two_pow_pos 32) _),
    Crc32.continued_zero]
  exact eq_comm

/-- What stands before the last buffer without data has the checksum zero. -/
def TypeScript.Unbroken (null : Nat → Bool) (device : Device) : Prop :=
  ∀ before after, buffers null device = before ++ none :: after → none ∉ after →
    Crc32.checksum (bytes before) = 0

theorem typeScript_agrees_iff (null : Nat → Bool) (device : Device) :
    identityOf null device .typeScript = identityOf null device .cpp ↔
      TypeScript.Unbroken null device := by
  rw [identityOf_cpp, identityOf, TypeScript.identity, Option.some.injEq, identity_inj,
    TypeScript.crc_eq, Device.checksum, ← TypeScript.bytes_buffers null]
  constructor
  · intro same before after split later
    rwa [split, TypeScript.foldl_null later] at same
  · intro unbroken
    rcases Trim.last_or_none (· = none) (TypeScript.buffers null device) with
      present | ⟨before, x, after, split, rfl, absent⟩
    · rw [TypeScript.foldl_data fun member => present none member rfl, Crc32.continued_zero]
    · have later : none ∉ after := fun member => absent none member rfl
      rw [split, TypeScript.foldl_null later]
      exact unbroken before after split later

/-- The three servers derive one identity from a device just when its checksum has 31
bits and no field without data comes behind others. -/
theorem same_identity_iff (null : Nat → Bool) (device : Device) :
    (∀ server other, identityOf null device server = identityOf null device other) ↔
      device.checksum < 2 ^ 31 ∧ TypeScript.Unbroken null device := by
  rw [← lua_agrees_iff null, ← typeScript_agrees_iff]
  constructor
  · exact fun same => ⟨same .lua .cpp, same .typeScript .cpp⟩
  · rintro ⟨lua, typeScript⟩
    have asCpp (server : Server) : identityOf null device server = identityOf null device .cpp := by
      cases server with
      | cpp => rfl
      | typeScript => exact typeScript
      | lua => exact lua
    exact fun server other => (asCpp server).trans (asCpp other).symm

/-- Lua puts eight `f` before the number `d7477087`. -/
theorem sign_in_pid :
    ¬ ∀ null device server other, identityOf null device server = identityOf null device other := by
  intro same
  have agree :=
    same (fun _ => false) ⟨"Linux", "phone", "5.10", "aarch64", by decide +kernel⟩ .lua .cpp
  rw [lua_agrees_iff] at agree
  exact absurd agree (by decide +kernel)

end ApiUserGet
end Gearsdk
