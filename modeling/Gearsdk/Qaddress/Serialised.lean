import Gearsdk.Qh3server.Datagrams

/-! Which texts of an address survive `serialise`. The parts between the points
are counted nowhere, and every number is cut to a byte. -/
namespace Gearsdk.Qaddress
open Qstring Str2int
open Qh3router (originalClientAddrSz)

/-- The byte of a part that is a number. -/
def octet (part : Qstring) : Option UInt8 :=
  match str2int part part.length with
  | .success v => some (UInt8.ofInt v)
  | _ => none

/-- `serialise` refuses, or writes what `deserialise` reads as the same address. -/
def ExactOrRefused (address : Qaddress) (buf : Qstring) : Prop :=
  ∃ rc bytes, address.serialise buf = some (rc, bytes) ∧
    (rc = 0 → bytes.length = originalClientAddrSz ∧ ∀ other : Qaddress,
      other.deserialise bytes = (0, address))

/-- A part that is not a number is met before `tmp` is full. -/
def Refuses (ip : Qstring) : Prop := ∃ part ∈ (ip.split [46] true).take 15, octet part = none

theorem serialiseParts_cons (n : Qstring) (array : List Qstring) (tmp : List UInt8) (index : Nat) :
    serialiseParts (n :: array) tmp index =
      match octet n with
      | some v => (Buffer.write tmp index [v]).bind fun tmp => serialiseParts array tmp (index + 1)
      | none => some none := by
  simp only [serialiseParts, octet]
  cases str2int n n.length with
  | success v => rfl
  | overflow | underflow | inconvertible => rfl

section Parts
variable {array : List Qstring} {tmp : List UInt8} {index : Nat}

theorem serialiseParts_refused (size : tmp.length = 16) (within : index ≤ 16)
    (bad : ∃ part ∈ array.take (17 - index), octet part = none) :
    serialiseParts array tmp index = some none := by
  induction array generalizing tmp index with
  | nil => simp at bad
  | cons n rest ih =>
    rw [serialiseParts_cons]
    cases number : octet n with
    | none => rfl
    | some v =>
      obtain ⟨part, member, unread⟩ := bad
      have split : 17 - index = 16 - index + 1 := by omega
      rw [split, List.take_succ_cons] at member
      rcases List.mem_cons.mp member with rfl | later
      · rw [number] at unread
        contradiction
      · have below : index < 16 := by
          by_contra full
          have none_left : 16 - index = 0 := by omega
          rw [none_left, List.take_zero] at later
          exact absurd later List.not_mem_nil
        obtain ⟨tmp', wrote⟩ : ∃ tmp', Buffer.write tmp index [v] = some tmp' :=
          ⟨_, Buffer.write_of_fits (by rw [List.length_singleton, size]; omega)⟩
        have next : 17 - (index + 1) = 16 - index := by omega
        simp only [wrote, Option.bind_some]
        refine ih ((Buffer.length_write wrote).trans size) below ⟨part, ?_, unread⟩
        rwa [next]

/-- When no part is refused, one byte is written for each of them, as far as there
is room. -/
theorem serialiseParts_numbers (size : tmp.length = 16) (within : index ≤ 16)
    (numbers : ∀ part ∈ array.take (17 - index), octet part ≠ none) :
    (16 < index + array.length ∧ serialiseParts array tmp index = none) ∨
      ∃ values tmp', values.length = array.length ∧
        tmp'.take (index + array.length) = tmp.take index ++ values ∧
        serialiseParts array tmp index = some (some (tmp', index + array.length)) := by
  induction array generalizing tmp index with
  | nil =>
    refine .inr ⟨[], tmp, rfl, ?_, rfl⟩
    exact (List.append_nil _).symm
  | cons n rest ih =>
    have split : 17 - index = 16 - index + 1 := by omega
    rw [split, List.take_succ_cons] at numbers
    obtain ⟨v, number⟩ := Option.ne_none_iff_exists'.mp (numbers n List.mem_cons_self)
    rw [serialiseParts_cons, number]
    dsimp only
    by_cases below : index < 16
    · obtain ⟨tmp', wrote⟩ : ∃ tmp', Buffer.write tmp index [v] = some tmp' :=
        ⟨_, Buffer.write_of_fits (by rw [List.length_singleton, size]; omega)⟩
      have next : 17 - (index + 1) = 16 - index := by omega
      have written : tmp'.take (index + 1) = tmp.take index ++ [v] := Buffer.take_write wrote
      have far : index + (n :: rest).length = index + 1 + rest.length := by
        rw [List.length_cons]
        omega
      rw [wrote, Option.bind_some, far]
      rcases @ih tmp' (index + 1) ((Buffer.length_write wrote).trans size) below
        (next ▸ fun part member => numbers part (List.mem_cons_of_mem n member)) with ⟨beyond,
          outside⟩ | ⟨values, last, count, bytes, ended⟩
      · exact .inl ⟨beyond, outside⟩
      · refine .inr ⟨v :: values, last, congrArg Nat.succ count, ?_, ended⟩
        rw [bytes, written, List.append_assoc]
        rfl
    · refine .inl ⟨?_, ?_⟩
      · rw [List.length_cons]
        omega
      · have outside : Buffer.write tmp index [v] = none := by
          refine if_neg ?_
          rw [List.length_singleton, size]
          omega
        rw [outside, Option.bind_none]

end Parts

theorem serialise_eq (port : UInt16) (ip buf : Qstring) :
    ∃ tmp, tmp.length = 16 ∧ tmp.take 2 = htons port ∧
      serialise ⟨port, ip⟩ buf = (serialiseParts (ip.split [46] true) tmp 2).map fun outcome =>
        match outcome with
        | none => (-1, buf)
        | some (tmp, index) => (0, Buffer.read tmp 0 index) := by
  have room : 0 + (htons port).length ≤ (List.replicate 16 (0 : UInt8)).length := by
    rw [List.length_replicate]
    exact (by decide : 2 ≤ 16)
  obtain ⟨tmp, wrote⟩ : ∃ tmp, Buffer.write (List.replicate 16 0) 0 (htons port) = some tmp :=
    ⟨_, Buffer.write_of_fits room⟩
  refine ⟨tmp, Buffer.length_write wrote, Buffer.take_write wrote, ?_⟩
  simp only [serialise, wrote, Option.bind_eq_bind, Option.bind_some]
  cases serialiseParts (ip.split [46] true) tmp 2 with
  | none => rfl
  | some outcome =>
    cases outcome with
    | none => rfl
    | some result => rfl

/-- Without a refusal the port is followed by one byte for each part. -/
theorem serialise_numbers {port : UInt16} {ip buf bytes : Qstring} {rc : Int}
    (numbers : ¬ Refuses ip) (wrote : serialise ⟨port, ip⟩ buf = some (rc, bytes)) :
    ∃ values, bytes = htons port ++ values ∧ rc = 0 := by
  obtain ⟨tmp, size, start, same⟩ := serialise_eq port ip buf
  have read : ∀ part ∈ (ip.split [46] true).take (17 - 2), octet part ≠ none :=
    fun part member unread => numbers ⟨part, member, unread⟩
  rcases serialiseParts_numbers size (by decide) read with
    ⟨_, outside⟩ | ⟨values, last, _, written, ended⟩
  · rw [same, outside] at wrote
    contradiction
  · rw [same, ended] at wrote
    obtain ⟨rfl, rfl⟩ := Prod.mk.inj (Option.some.inj wrote)
    rw [start] at written
    exact ⟨values, written, rfl⟩

/-- An address is serialised exactly or refused exactly when its text is that of
four bytes or a part that is not a number stops the loop in time. -/
theorem exact_or_refused_iff (port : UInt16) (ip buf : Qstring) :
    ExactOrRefused ⟨port, ip⟩ buf ↔ Refuses ip ∨ ∃ address : InAddr, ip = address.dottedQuad := by
  constructor
  · rintro ⟨rc, bytes, wrote, kept⟩
    by_cases refuses : Refuses ip
    · exact .inl refuses
    · obtain ⟨values, rfl, rfl⟩ := serialise_numbers refuses wrote
      obtain ⟨length, back⟩ := kept rfl
      match values, length with
      | [a, b, c, d], _ =>
        have read := deserialise_append ⟨port, ip⟩ port ⟨a, b, c, d⟩ []
        rw [List.append_nil] at read
        have same := (Prod.mk.inj ((back ⟨port, ip⟩).symm.trans read)).2
        exact .inr ⟨⟨a, b, c, d⟩, (Qaddress.mk.inj same).2⟩
  · rintro (refuses | ⟨address, rfl⟩)
    · obtain ⟨tmp, size, _, same⟩ := serialise_eq port ip buf
      have refused : serialiseParts (ip.split [46] true) tmp 2 = some none :=
        serialiseParts_refused size (by decide) refuses
      refine ⟨-1, buf, ?_, fun success => absurd success (by decide)⟩
      rw [same, refused]
      rfl
    · refine ⟨0, _, serialise_spec port address buf, fun _ => ⟨rfl, fun other => ?_⟩⟩
      have back := other.deserialise_append port address []
      rwa [List.append_nil] at back

/-- The text of an IPv6 address has no points, and only the port is written. -/
theorem loopback_loses_its_address : ¬ ExactOrRefused ⟨4000, literal "::1"⟩ [] := by
  have only_port : serialise ⟨4000, literal "::1"⟩ [] = some (0, [15, 160]) := by decide +kernel
  rintro ⟨rc, bytes, wrote, kept⟩
  rw [only_port] at wrote
  obtain ⟨rfl, rfl⟩ := Prod.mk.inj (Option.some.inj wrote)
  exact absurd (kept rfl).1 (by decide)

/-- A client's suffix has the length that the router takes off exactly when the
client's address has a text. -/
theorem suffix_length_iff (addr : Sockaddr) :
    (∃ suffix, (ofSockaddr addr).serialise [] = some (0, suffix) ∧
      suffix.length = originalClientAddrSz) ↔
      getnameinfo addr ≠ none := by
  rcases serialise_ofSockaddr_cases addr [] with ⟨unnamed, written⟩ | ⟨client, named, written⟩
  · refine iff_of_false ?_ fun some => some unnamed
    rintro ⟨suffix, same, length⟩
    obtain ⟨_, rfl⟩ := Prod.mk.inj (Option.some.inj (written.symm.trans same))
    exact absurd length (by decide)
  · refine iff_of_true ⟨client.suffix, written, client.length_suffix⟩ ?_
    rw [named, client.getnameinfo_bytes]
    exact Option.some_ne_none _

end Gearsdk.Qaddress
