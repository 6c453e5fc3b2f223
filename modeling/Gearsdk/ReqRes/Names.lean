import Gearsdk.ReqRes
import Gearsdk.Responder
import Mathlib.Logic.Function.Basic

/-! The headers of a record against a map from names to values that keeps the first value
of a name. The record looks names up by their CRC-32 and does not compare the names. -/
namespace Gearsdk
open Qstring

inductive HeaderCall where
  | addOrGetHeader (name value : Qstring)
  | getHeader (name : Qstring)

namespace HeaderCall

def name : HeaderCall → Qstring
  | addOrGetHeader name _ => name
  | getHeader name => name

end HeaderCall

/-- The name and the value of a header. -/
def Header.entry (header : Header) : Qstring × Qstring := (header.name, header.value)

namespace ConnIoReqRes

/-- A record that is called for its headers. -/
def headerMap : Responder ConnIoReqRes HeaderCall (Option (Qstring × Qstring)) where
  init := {}
  call
    | record, .addOrGetHeader name value =>
        let (record, header) := record.addOrGetHeader name value
        (record, some header.entry)
    | record, .getHeader name => (record, (record.getHeader name).map Header.entry)

/-- The map from names to values, of which the first is kept. -/
def nameMap : Responder (Qstring → Option Qstring) HeaderCall (Option (Qstring × Qstring)) where
  init := fun _ => none
  call
    | names, .addOrGetHeader name value =>
        match names name with
        | none => (Function.update names name (some value), some (name, value))
        | some kept => (names, some (name, kept))
    | names, .getHeader name => (names, (names name).map fun kept => (name, kept))

/-- The record holds just what the names map to, each under the checksum of its name. -/
structure Holds (record : ConnIoReqRes) (names : Qstring → Option Qstring) : Prop where
  entries : ∀ (k : Nat) (header : Header), record.headers[k]? = some header ↔
    names header.name = some header.value ∧ Crc32.checksum header.name = k
  clean : ∀ name value, names name = some value → Clean name ∧ Clean value

/-- No other name that is in the map has the checksum of the name that is called, and what is
new to the map has no NUL. -/
structure Distinct (names : Qstring → Option Qstring) (call : HeaderCall) : Prop where
  alone : ∀ other, names other ≠ none → Crc32.checksum other = Crc32.checksum call.name →
    other = call.name
  clean : ∀ name value, call = .addOrGetHeader name value → names name = none → Clean name ∧
    Clean value

variable {record : ConnIoReqRes} {names : Qstring → Option Qstring}

theorem holds_init : Holds {} (fun _ => none) := by
  refine ⟨fun k header => ?_, fun name value stored => by contradiction⟩
  rw [OrderedMap.lookup_empty]
  refine iff_of_false (by rintro ⟨⟩) ?_
  rintro ⟨stored, _⟩
  contradiction

/-- A name of the map is found in the record. -/
theorem Holds.found (holds : record.Holds names) (stored : names name = some value) :
    ∃ header, record.getHeader name = some header ∧ header.entry = (name, value) := by
  obtain ⟨cleanName, cleanValue⟩ := holds.clean name value stored
  exact ⟨⟨name, value, cleanName, cleanValue⟩, (holds.entries _ _).mpr ⟨stored, rfl⟩, rfl⟩

theorem Holds.absent (holds : record.Holds names) (missing : record.getHeader name = none) :
    names name = none := by
  cases stored : names name with
  | none => rfl
  | some value =>
    obtain ⟨header, found, _⟩ := holds.found stored
    rw [missing] at found
    contradiction

/-- Nothing in the map goes by the checksum of a name that is not found. -/
theorem Holds.alone_of_absent (holds : record.Holds names) (missing : record.getHeader name = none)
    (other : Qstring) (stored : names other ≠ none) :
    Crc32.checksum other ≠ Crc32.checksum name := by
  intro same
  obtain ⟨value, stored⟩ := Option.ne_none_iff_exists'.mp stored
  obtain ⟨header, found, _⟩ := holds.found stored
  rw [getHeader, same] at found
  rw [getHeader, found] at missing
  contradiction

/-- What is found under a checksum is all that the map has under it. -/
theorem Holds.alone_iff (holds : record.Holds names) (found : record.getHeader name = some header) :
    (∀ other, names other ≠ none → Crc32.checksum other = Crc32.checksum name → other = name) ↔
      header.name = name := by
  obtain ⟨stored, here⟩ := (holds.entries _ header).mp found
  constructor
  · intro alone
    exact alone header.name (by rw [stored]; exact Option.some_ne_none _) here
  · rintro rfl other kept same
    obtain ⟨value, kept⟩ := Option.ne_none_iff_exists'.mp kept
    obtain ⟨first, again, entry⟩ := holds.found kept
    rw [getHeader, same] at again
    obtain rfl := Option.some.inj (found.symm.trans again)
    exact (congrArg Prod.fst entry).symm

theorem answer_of_name (names : Qstring → Option Qstring) (name value : Qstring) :
    (nameMap.call names (.addOrGetHeader name value)).2 = some (name, (names name).getD value) := by
  simp only [nameMap]
  cases names name with
  | none => rfl
  | some kept => rfl

/-- A header that is found is the answer by name just when it has the name. -/
theorem Holds.entry_iff (holds : record.Holds names) (found : record.getHeader name = some header) :
    (∃ kept, names name = some kept ∧ header.entry = (name, kept)) ↔ header.name = name := by
  obtain ⟨stored, _⟩ := (holds.entries _ header).mp found
  constructor
  · rintro ⟨kept, _, entry⟩
    exact congrArg Prod.fst entry
  · rintro rfl
    exact ⟨header.value, stored, rfl⟩

theorem addOrGetHeader_of_found (found : record.getHeader name = some header) :
    record.addOrGetHeader name value = (record, header) := by
  rw [getHeader] at found
  simp only [addOrGetHeader, found]

theorem addOrGetHeader_of_absent (missing : record.getHeader name = none) :
    record.addOrGetHeader name value =
      ({ record with headers := record.headers.insert (Crc32.checksum name) (Header.create name value) },
        Header.create name value) := by
  rw [getHeader] at missing
  simp only [addOrGetHeader, missing]

theorem answer_getHeader_iff (holds : record.Holds names) (name : Qstring) :
    (headerMap.call record (.getHeader name)).2 = (nameMap.call names (.getHeader name)).2 ↔
      Distinct names (.getHeader name) := by
  have same_iff : Distinct names (.getHeader name) ↔
      ∀ other, names other ≠ none → Crc32.checksum other = Crc32.checksum name → other = name :=
    ⟨Distinct.alone, fun alone => ⟨alone, fun _ _ other => by contradiction⟩⟩
  simp only [headerMap, nameMap]
  rw [same_iff]
  cases found : record.getHeader name with
  | none =>
    rw [holds.absent found]
    exact iff_of_true rfl fun other stored same =>
      absurd same (holds.alone_of_absent found other stored)
  | some header =>
    rw [holds.alone_iff found, ← holds.entry_iff found, Option.map_some, eq_comm,
      Option.map_eq_some_iff]
    exact exists_congr fun kept => and_congr_right fun _ => eq_comm

theorem answer_addOrGetHeader_iff (holds : record.Holds names) (name value : Qstring) :
    (headerMap.call record (.addOrGetHeader name value)).2 =
      (nameMap.call names (.addOrGetHeader name value)).2 ↔
      Distinct names (.addOrGetHeader name value) := by
  rw [answer_of_name]
  simp only [headerMap]
  cases found : record.getHeader name with
  | none =>
    rw [addOrGetHeader_of_absent found, holds.absent found]
    simp only [Header.entry, Header.create, Option.getD_none, Option.some.injEq, Prod.mk.injEq,
      cString_eq_self_iff]
    constructor
    · intro clean
      refine ⟨fun other stored same => absurd same (holds.alone_of_absent found other stored), ?_⟩
      rintro _ _ ⟨⟩ _
      exact clean
    · intro distinct
      exact distinct.clean name value rfl (holds.absent found)
  | some header =>
    rw [addOrGetHeader_of_found found, Option.some.injEq]
    constructor
    · intro same
      have named : header.name = name := congrArg Prod.fst same
      obtain ⟨kept, stored, _⟩ := (holds.entry_iff found).mpr named
      refine ⟨(holds.alone_iff found).mpr named, ?_⟩
      rintro _ _ ⟨⟩ missing
      rw [stored] at missing
      contradiction
    · intro distinct
      obtain ⟨kept, stored, entry⟩ :=
        (holds.entry_iff found).mpr ((holds.alone_iff found).mp distinct.alone)
      rw [stored, entry]
      rfl

theorem answer_eq_iff (call : HeaderCall) (holds : record.Holds names) :
    (headerMap.call record call).2 = (nameMap.call names call).2 ↔ Distinct names call := by
  cases call with
  | addOrGetHeader name value => exact answer_addOrGetHeader_iff holds name value
  | getHeader name => exact answer_getHeader_iff holds name

theorem Holds.insert (holds : record.Holds names) (missing : record.getHeader name = none)
    (cleanName : Clean name) (cleanValue : Clean value) :
    Holds { record with
      headers := record.headers.insert (Crc32.checksum name) (Header.create name value) }
      (Function.update names name (some value)) := by
  have created : Header.create name value = ⟨name, value, cleanName, cleanValue⟩ := by
    simp only [Header.create, cString_of_nul_free cleanName, cString_of_nul_free cleanValue]
  constructor
  · intro k header
    rw [OrderedMap.lookup_insert, created]
    by_cases named : header.name = name
    · rw [named, Function.update_self]
      by_cases here : Crc32.checksum name = k
      · rw [if_pos here, Option.some.injEq, Option.some.injEq]
        refine ⟨fun same => ⟨congrArg Header.value same, here⟩, fun same => ?_⟩
        cases header
        cases named
        cases same.1
        rfl
      · rw [if_neg here, holds.entries, named]
        exact iff_of_false (fun both => here both.2) (fun both => here both.2)
    · rw [Function.update_of_ne named]
      by_cases here : Crc32.checksum name = k
      · refine iff_of_false (fun same => named ?_) ?_
        · rw [if_pos here] at same
          exact (congrArg Header.name (Option.some.inj same)).symm
        · rintro ⟨stored, same⟩
          have kept : names header.name ≠ none := by
            rw [stored]
            exact Option.some_ne_none _
          exact holds.alone_of_absent missing _ kept (same.trans here.symm)
      · rw [if_neg here, holds.entries]
  · intro other kept stored
    by_cases same : other = name
    · rw [same, Function.update_self] at stored
      cases Option.some.inj stored
      exact ⟨same ▸ cleanName, cleanValue⟩
    · rw [Function.update_of_ne same] at stored
      exact holds.clean other kept stored

theorem Holds.call (call : HeaderCall) (holds : record.Holds names)
    (distinct : Distinct names call) :
    Holds (headerMap.call record call).1 (nameMap.call names call).1 := by
  cases call with
  | getHeader name => exact holds
  | addOrGetHeader name value =>
    simp only [headerMap, nameMap]
    cases found : record.getHeader name with
    | none =>
      obtain ⟨cleanName, cleanValue⟩ := distinct.clean name value rfl (holds.absent found)
      rw [addOrGetHeader_of_absent found, holds.absent found]
      exact holds.insert found cleanName cleanValue
    | some header =>
      obtain ⟨kept, stored, _⟩ :=
        (holds.entry_iff found).mpr ((holds.alone_iff found).mp distinct.alone)
      rw [addOrGetHeader_of_found found, stored]
      exact holds

/-- A record answers like the map from names to values just when no call has the checksum of
another name that was added before, and no name or value with a NUL is added. -/
theorem header_map_iff (calls : List HeaderCall) : headerMap.answers calls = nameMap.answers calls ↔
    ∀ before call later, calls = before ++ call :: later → Distinct (nameMap.after before) call :=
  Responder.answers_eq_iff holds_init answer_eq_iff Holds.call calls

/-- The two names have one checksum. -/
theorem header_of_another_name : ¬ ∀ calls, headerMap.answers calls = nameMap.answers calls := by
  intro same
  have answers :=
    same [.addOrGetHeader (literal "tkucabpk") (literal "0"), .getHeader (literal "crc")]
  exact absurd answers (by decide +kernel)

end ConnIoReqRes
end Gearsdk
