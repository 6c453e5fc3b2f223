import Gearsdk.ApiUserGet
import Gearsdk.Javascript.Properties
import Gearsdk.Json.Roundtrip
import Gearsdk.Qh3server.ParseCallbacks
import Gearsdk.Utf16.Spelling
import Mathlib.Data.List.Forall2

/-! The headers of a request in the script: written as JSON under their checksums, read there into
a map, and looked up by a checksum that the script computes again. -/
namespace Gearsdk
open Qstring

/-- A name and a value without NUL in valid UTF-8. -/
structure HeaderField where
  name : String
  value : String
  clean : Clean (literal name) ∧ Clean (literal value)

namespace ConnIoReqRes

def ofFields (fields : List HeaderField) : ConnIoReqRes :=
  fields.foldl (fun record field =>
    (record.addOrGetHeader (literal field.name) (literal field.value)).1) {}

end ConnIoReqRes

namespace HeaderUtils
open Javascript

/-- A header of the script, of which a property may be of any kind. -/
structure ScriptHeader where
  name : Value
  value : Value

/-- The newest entry of a key counts. -/
abbrev HeaderMap := List (Nat × ScriptHeader)

/-- The loop of `json_to_map`. A type error ends it, and what has been entered stays. Nothing
stands for a key that is not in plain digits, whose number is not followed here. -/
def enter : List (Utf16.Text × Value) → HeaderMap → Option HeaderMap
  | [], map => some map
  | (key, entry) :: rest, map =>
      match digitsNumber key, entry.get "name", entry.get "value" with
      | none, _, _ => none
      | some crc, some name, some value => enter rest ((crc, ⟨name, value⟩) :: map)
      | some _, _, _ => some map

/-- A syntax error is caught. -/
def jsonToMap (json : Utf16.Text) : Option HeaderMap :=
  match parse json with
  | none => some []
  | some value => enter value.entries []

/-- The data of an empty buffer may be at no address. -/
def modCrc32 (null : Bool) (name : Utf16.Text) : Nat :=
  ApiUserGet.TypeScript.napiModCrc32 0
    (if null ∧ Utf16.utf8 name = [] then none else some (Utf16.utf8 name))

def getHeader (null : Bool) (name : Utf16.Text) (headers : HeaderMap) : Option ScriptHeader :=
  headers.lookup (modCrc32 null name)

/-- The header of the script has the name and the value of the record's. -/
def ScriptHeader.Matches (found : ScriptHeader) (header : Header) : Prop :=
  ∃ name value, found = ⟨.string name, .string value⟩ ∧ Utf16.ofUtf8 header.name = some name ∧
    Utf16.ofUtf8 header.value = some value

/-! ### Records of texts -/

def text (bytes : Qstring) : Utf16.Text := (Utf16.ofUtf8 bytes).getD []

def IsUtf8 (bytes : Qstring) : Prop := Utf16.Spells bytes (text bytes)

theorem isUtf8_of_spells (spells : Utf16.Spells bytes spelled) : IsUtf8 bytes := by
  rw [IsUtf8, text, spells.ofUtf8]
  exact spells

theorem isUtf8_literal (s : String) : IsUtf8 (literal s) := by
  have bytes : literal s = s.toList.flatMap String.utf8EncodeChar := by
    conv => lhs; rw [← String.ofList_toList (s := s)]
    rw [literal, String.toUTF8, String.toByteArray_ofList, List.utf8Encode, List.data_toByteArray]
  exact isUtf8_of_spells ⟨s.toList, bytes, rfl⟩

/-- Every header is of texts and kept under the checksum of its name. -/
structure Spelled (record : ConnIoReqRes) : Prop where
  keyed : record.Keyed
  name : ∀ (k : Nat) (header : Header), record.headers[k]? = some header → IsUtf8 header.name
  value : ∀ (k : Nat) (header : Header), record.headers[k]? = some header → IsUtf8 header.value

theorem Spelled.empty : Spelled {} := by
  refine ⟨ConnIoReqRes.Keyed.empty, ?_, ?_⟩
  all_goals
    intro k header found
    rw [OrderedMap.lookup_empty] at found
    cases found

theorem Spelled.addOrGetHeader (spelled : Spelled record) (field : HeaderField) :
    Spelled (record.addOrGetHeader (literal field.name) (literal field.value)).1 := by
  have added (k : Nat) (header : Header)
      (found : (record.addOrGetHeader (literal field.name) (literal field.value)).1.headers[k]? =
        some header) :
      record.headers[k]? = some header ∨
        k = Crc32.checksum header.name ∧ header.name = literal field.name ∧
          header.value = literal field.value := by
    rw [ConnIoReqRes.lookup_addOrGetHeader, Option.or_eq_some_iff] at found
    rcases found with before | ⟨_, now⟩
    · exact .inl before
    · split at now
      · rename_i here
        obtain rfl := Option.some.inj now
        have name : (Header.create (literal field.name) (literal field.value)).name =
          literal field.name :=
          cString_of_nul_free field.clean.1
        rw [name]
        exact .inr ⟨here.symm, rfl, cString_of_nul_free field.clean.2⟩
      · cases now
  refine ⟨fun k header found => ?_, fun k header found => ?_, fun k header found => ?_⟩
  · rcases added k header found with before | ⟨here, _⟩
    · exact spelled.keyed k header before
    · exact here
  · rcases added k header found with before | ⟨_, name, _⟩
    · exact spelled.name k header before
    · exact name ▸ isUtf8_literal field.name
  · rcases added k header found with before | ⟨_, _, value⟩
    · exact spelled.value k header before
    · exact value ▸ isUtf8_literal field.value

theorem spelled_ofFields (fields : List HeaderField) : Spelled (ConnIoReqRes.ofFields fields) := by
  have run (record : ConnIoReqRes) (spelled : Spelled record) :
    Spelled (fields.foldl (fun record field =>
      (record.addOrGetHeader (literal field.name) (literal field.value)).1) record) := by
    induction fields generalizing record with
    | nil => exact spelled
    | cons field rest ih => exact ih _ (spelled.addOrGetHeader field)
  exact run {} Spelled.empty

theorem Spelled.key_lt (spelled : Spelled record) (found : record.headers[k]? = some header) :
    k < 2 ^ 53 := by
  rw [spelled.keyed k header found]
  exact Nat.lt_trans (Crc32.checksum_lt _) (by decide)

/-! ### The text of the document -/

def headerObject (header : Header) : Json :=
  .object [(literal "name", .string header.name), (literal "value", .string header.value)]

/-- The document of `headers_to_json`. -/
def document (record : ConnIoReqRes) : Json :=
  .object (record.headers.toList.map fun entry => (Qstring.decimal entry.1, headerObject entry.2))

theorem headersToJson_eq (record : ConnIoReqRes) :
    record.headersToJson = Json.write (document record) := by
  have plain : Json.Plain (document record) := by
    rw [document, Json.Plain, Json.plainMembers_iff]
    intro member inside
    obtain ⟨entry, _, rfl⟩ := List.mem_map.mp inside
    exact ⟨trivial, trivial, trivial⟩
  exact cString_of_nul_free (Json.write_clean (document record) plain)

theorem escape_alike : Utf16.Alike Json.escape Javascript.escape := by
  have table : ∀ n < 128, (Json.escape (UInt8.ofNat n)).all (fun byte => byte.toNat < 128) = true ∧
      (Json.escape (UInt8.ofNat n)).map Utf16.widen = Javascript.escape (UInt16.ofNat n) := by
        decide
  refine ⟨fun n small => ?_, fun byte above => ?_, fun unit above => ?_⟩
  · obtain ⟨ascii, same⟩ := table n small
    exact same ▸ Utf16.Spells.ascii fun byte inside =>
      of_decide_eq_true (List.all_eq_true.mp ascii byte inside)
  · have other (small : UInt8) (below : small.toNat < 128) : byte ≠ small := by
      rintro rfl
      omega
    have visible : ¬ byte.toNat < 32 := by omega
    simp only [Json.escape, other 34 (by decide), other 92 (by decide), other 8 (by decide),
      other 9 (by decide), other 10 (by decide), other 12 (by decide), other 13 (by decide),
      visible, if_false]
  · have other (small : UInt16) (below : small.toNat < 128) : unit ≠ small := by
      rintro rfl
      omega
    have visible : ¬ unit.toNat < 32 := by omega
    simp only [Javascript.escape, other 34 (by decide), other 92 (by decide), other 8 (by decide),
      other 9 (by decide), other 10 (by decide), other 12 (by decide), other 13 (by decide),
      visible, if_false]

theorem spells_string (spells : Utf16.Spells bytes spelled) :
    Utf16.Spells (Json.writeString bytes) (quote spelled) := by
  have mark : Utf16.Spells [34] [34] := Utf16.Spells.byte (by decide)
  exact mark.append ((spells.flatMap escape_alike).append mark)

/-- A member of a document and one of the script that spell the same. -/
def MemberSpells (member : Qstring × Json) (written : Utf16.Text × Utf16.Text) : Prop :=
  Utf16.Spells member.1 written.1 ∧ Utf16.Spells (Json.write member.2) written.2

theorem spells_members (spells : List.Forall₂ MemberSpells members written) (first : Bool) :
    Utf16.Spells (Json.writeMembers first members) (membersText first written) := by
  have mark : Utf16.Spells [44] [44] := Utf16.Spells.byte (by decide)
  have comma : Utf16.Spells (Json.separator first) (if first then [] else [44]) := by
    cases first with
    | true => exact Utf16.Spells.nil
    | false => exact mark
  have colon : Utf16.Spells [58] [58] := Utf16.Spells.byte (by decide)
  induction spells generalizing first with
  | nil => exact Utf16.Spells.nil
  | cons here _ ih =>
    have later := ih false mark
    exact ((comma.append (spells_string here.1)).append (colon.append here.2)).append later

theorem spells_object (spells : List.Forall₂ MemberSpells members written) :
    Utf16.Spells (Json.write (.object members)) (objectText written) := by
  have opening : Utf16.Spells [123] [123] := Utf16.Spells.byte (by decide)
  have closing : Utf16.Spells [125] [125] := Utf16.Spells.byte (by decide)
  exact opening.append ((spells_members spells true).append closing)

/-! ### What the script reads -/

/-- The header of the script for one of the record. -/
def script (header : Header) : ScriptHeader :=
  ⟨.string (text header.name), .string (text header.value)⟩

/-- The members of a header's object, each with its text and its value. -/
def properties (header : Header) : List (Utf16.Text × Utf16.Text × Value) :=
  [(units "name", quote (text header.name), .string (text header.name)),
    (units "value", quote (text header.value), .string (text header.value))]

/-- The members of the document. -/
def members (record : ConnIoReqRes) : List (Utf16.Text × Utf16.Text × Value) :=
  record.headers.toList.map fun entry =>
    (Javascript.decimal entry.1, objectText (texts (properties entry.2)),
      .object (addMembers [] (properties entry.2)))

theorem get_property (header : Header) :
    (Value.object (addMembers [] (properties header))).get "name" = some (script header).name ∧
      (Value.object (addMembers [] (properties header))).get "value" =
        some (script header).value := by
  have distinct : addMembers [] (properties header) =
      [(units "name", .string (text header.name)), (units "value", .string (text header.value))] :=
    addMembers_nodup [] (show [units "name", units "value"].Nodup by decide)
  have other : (units "value" == units "name") = false := by decide
  rw [distinct]
  refine ⟨?_, ?_⟩
  · rw [Value.get, List.lookup_cons_self]
    rfl
  · rw [Value.get, List.lookup_cons, other, List.lookup_cons_self]
    rfl

theorem spells_key (n : Nat) : Utf16.Spells (Qstring.decimal n) (Javascript.decimal n) := by
  have digits : Qstring.decimal n = unsigned n := by
    refine literal_ofList fun c inside => ?_
    have digit := Nat.isDigit_of_mem_toDigits (by decide) (by decide) inside
    exact Nat.lt_of_le_of_lt (digit_toNat digit).2.2 (by decide)
  have ascii : ∀ byte ∈ unsigned n, byte.toNat < 128 := by
    intro byte inside
    exact Nat.lt_of_le_of_lt (isdigit_bounds (unsigned_digits n byte inside)).2 (by decide)
  have spells := Utf16.Spells.ascii ascii
  have same : (unsigned n).map Utf16.widen = Javascript.decimal n := by
    rw [unsigned, List.map_map, Javascript.decimal, units, String.toList_ofList]
    refine List.map_congr_left fun c inside => ?_
    have digit := Nat.isDigit_of_mem_toDigits (by decide) (by decide) inside
    rw [Function.comp, Utf16.widen, (digit_toNat digit).1]
  rwa [same, ← digits] at spells

theorem spells_header (name : IsUtf8 header.name) (value : IsUtf8 header.value) :
    Utf16.Spells (Json.write (headerObject header)) (objectText (texts (properties header))) := by
  have first : Utf16.Spells (literal "name") (units "name") :=
    Utf16.Spells.ascii (by decide +kernel)
  have second : Utf16.Spells (literal "value") (units "value") :=
    Utf16.Spells.ascii (by decide +kernel)
  exact spells_object (.cons ⟨first, spells_string name⟩ (.cons ⟨second, spells_string value⟩ .nil))

theorem Spelled.document (spelled : Spelled record) :
    Utf16.Spells (Json.write (document record)) (objectText (texts (members record))) := by
  refine spells_object ?_
  rw [texts, members, List.map_map, List.forall₂_map_left_iff, List.forall₂_map_right_iff,
    List.forall₂_same]
  intro entry inside
  have found := Std.TreeMap.mem_toList_iff_getElem?_eq_some.mp inside
  exact ⟨spells_key entry.1, spells_header (spelled.name _ _ found) (spelled.value _ _ found)⟩

theorem Spelled.nodup (spelled : Spelled record) : ((members record).map Prod.fst).Nodup := by
  rw [members, List.map_map, List.Nodup, List.pairwise_map]
  refine Std.TreeMap.distinct_keys_toList.imp_of_mem fun {a b} first second different same => ?_
  have first := spelled.key_lt (Std.TreeMap.mem_toList_iff_getElem?_eq_some.mp first)
  have second := spelled.key_lt (Std.TreeMap.mem_toList_iff_getElem?_eq_some.mp second)
  exact different (compare_eq_iff_eq.mpr (decimal_inj first second same))

theorem Spelled.parse (spelled : Spelled record) :
    parse (objectText (texts (members record))) =
      some (.object ((members record).map fun member => (member.1, member.2.2))) := by
  have reads : ∀ member ∈ members record, Reads member.2.1 member.2.2 := by
    intro member inside
    obtain ⟨entry, _, rfl⟩ := List.mem_map.mp inside
    refine Reads.object fun property here => ?_
    rcases List.mem_cons.mp here with rfl | here
    · exact Reads.quote _
    · obtain rfl := List.mem_singleton.mp here
      exact Reads.quote _
  rw [parse_of_reads (Reads.object reads), addMembers_nodup [] spelled.nodup, List.nil_append]

/-- What the loop makes of an entry. -/
structure ReadsAs (entry : Utf16.Text × Value) (crc : Nat) (header : ScriptHeader) : Prop where
  number : digitsNumber entry.1 = some crc
  name : entry.2.get "name" = some header.name
  value : entry.2.get "value" = some header.value

theorem ReadsAs.unique (reads : ReadsAs entry crc header) (again : ReadsAs entry crc' header') :
    crc' = crc ∧ header' = header := by
  obtain ⟨name, value⟩ := header
  obtain ⟨name', value'⟩ := header'
  obtain rfl : name' = name := Option.some.inj (again.name.symm.trans reads.name)
  obtain rfl : value' = value := Option.some.inj (again.value.symm.trans reads.value)
  exact ⟨Option.some.inj (again.number.symm.trans reads.number), rfl⟩

theorem readsAs_script (header : Header) (small : k < 2 ^ 53) :
    ReadsAs (Javascript.decimal k, .object (addMembers [] (properties header))) k (script header) :=
  ⟨digitsNumber_decimal small, (get_property header).1, (get_property header).2⟩

/-- Every entry that is read goes into the map. -/
theorem enter_all {entries : List (Utf16.Text × Value)}
    (read : ∀ entry ∈ entries, ∃ crc header, ReadsAs entry crc header) (map : HeaderMap) :
    ∃ map', enter entries map = some map' ∧
      ∀ crc header, (crc, header) ∈ map' ↔ (crc, header) ∈ map ∨
        ∃ entry ∈ entries, ReadsAs entry crc header := by
  induction entries generalizing map with
  | nil =>
    refine ⟨map, rfl, fun crc header => (or_iff_left ?_).symm⟩
    rintro ⟨entry, none, _⟩
    exact absurd none List.not_mem_nil
  | cons entry rest ih =>
    obtain ⟨⟨crc, header, here⟩, later⟩ := List.forall_mem_cons.mp read
    obtain ⟨map', entered, members⟩ := ih later ((crc, header) :: map)
    have step : enter (entry :: rest) map = enter rest ((crc, header) :: map) := by
      rw [enter, here.number, here.name, here.value]
    refine ⟨map', step.trans entered, fun crc' header' => ?_⟩
    have first : (crc', header') = (crc, header) ↔ ReadsAs entry crc' header' := by
      constructor
      · rintro ⟨⟩
        exact here
      · intro again
        obtain ⟨rfl, rfl⟩ := here.unique again
        rfl
    rw [members, List.mem_cons, first, List.exists_mem_cons_iff, ← or_assoc,
      or_comm (b := (crc', header') ∈ map)]

/-- In a map of which no key has two headers, a header is looked up just when it is in the map. -/
theorem lookup_iff {map : HeaderMap}
    (functional : ∀ k v v', (k, v) ∈ map → (k, v') ∈ map → v = v') :
    map.lookup k = some v ↔ (k, v) ∈ map := by
  constructor
  · intro found
    obtain ⟨before, after, rfl, _⟩ := List.lookup_eq_some_iff.mp found
    exact List.mem_append_right _ List.mem_cons_self
  · intro inside
    cases found : map.lookup k with
    | none =>
      exact absurd (List.lookup_eq_none_iff.mp found (k, v) inside)
        (by rw [bne_self_eq_false]; exact Bool.false_ne_true)
    | some v' =>
      obtain ⟨before, after, rfl, _⟩ := List.lookup_eq_some_iff.mp found
      rw [functional k v' v (List.mem_append_right _ List.mem_cons_self) inside]

/-- The members of the document as the script goes through them. -/
def entries (record : ConnIoReqRes) : List (Utf16.Text × Value) :=
  (Value.object ((members record).map fun member => (member.1, member.2.2))).entries

theorem mem_entries_iff : entry ∈ entries record ↔ ∃ (k : Nat) (header : Header),
    record.headers[k]? = some header ∧
    (Javascript.decimal k, .object (addMembers [] (properties header))) = entry := by
  rw [entries, mem_entries, members, List.map_map, List.mem_map]
  constructor
  · rintro ⟨⟨k, header⟩, inside, same⟩
    exact ⟨k, header, Std.TreeMap.mem_toList_iff_getElem?_eq_some.mp inside, same⟩
  · rintro ⟨k, header, found, same⟩
    exact ⟨(k, header), Std.TreeMap.mem_toList_iff_getElem?_eq_some.mpr found, same⟩

/-- The map of the script has the headers of the record under their keys. -/
theorem Spelled.jsonToMap (spelled : Spelled record) : ∃ map,
    jsonToMap (objectText (texts (members record))) = some map ∧
      ∀ k : Nat, map.lookup k = record.headers[k]?.map script := by
  have read : ∀ entry ∈ entries record, ∃ crc header, ReadsAs entry crc header := by
    intro entry inside
    obtain ⟨k, header, found, rfl⟩ := mem_entries_iff.mp inside
    exact ⟨k, script header, readsAs_script header (spelled.key_lt found)⟩
  obtain ⟨map, entered, members⟩ := enter_all read []
  have mem_map (k : Nat) (header : ScriptHeader) : (k, header) ∈ map ↔
      record.headers[k]?.map script = some header := by
    rw [members, or_iff_right List.not_mem_nil, Option.map_eq_some_iff]
    constructor
    · rintro ⟨entry, inside, reads⟩
      obtain ⟨k', found', here, rfl⟩ := mem_entries_iff.mp inside
      obtain ⟨rfl, rfl⟩ := (readsAs_script found' (spelled.key_lt here)).unique reads
      exact ⟨found', here, rfl⟩
    · rintro ⟨found, here, rfl⟩
      exact ⟨_, mem_entries_iff.mpr ⟨k, found, here, rfl⟩, readsAs_script found (spelled.key_lt here)⟩
  have functional (k : Nat) (v v' : ScriptHeader) (first : (k, v) ∈ map) (second : (k, v') ∈ map) :
    v = v' :=
    Option.some.inj (((mem_map k v).mp first).symm.trans ((mem_map k v').mp second))
  refine ⟨map, ?_, fun k => Option.ext fun header => ?_⟩
  · rw [HeaderUtils.jsonToMap, spelled.parse]
    exact entered
  · rw [lookup_iff functional, mem_map]

theorem modCrc32_eq (null : Bool) (filled : name ≠ []) :
    modCrc32 null name = Crc32.checksum (Utf16.utf8 name) := by
  have bytes : Utf16.utf8 name ≠ [] := by
    have length := (Utf16.length_utf8 name).1
    have some_unit := List.length_pos_of_ne_nil filled
    exact List.ne_nil_of_length_pos (Nat.lt_of_lt_of_le some_unit length)
  rw [modCrc32, if_neg fun empty => bytes empty.2]
  exact Crc32.continued_zero _

theorem Spelled.matches {k : Nat} (spelled : Spelled record)
    (found : record.headers[k]? = some header) : (script header).Matches header :=
  ⟨_, _, rfl, (spelled.name k header found).ofUtf8, (spelled.value k header found).ofUtf8⟩

/-- Every header is found by its own name. -/
theorem Spelled.found_by_name {k : Nat} (spelled : Spelled record)
    (found : record.headers[k]? = some header) (named : text header.name ≠ []) (null : Bool) :
    ∃ map, HeaderUtils.jsonToMap (objectText (texts (members record))) = some map ∧
      getHeader null (text header.name) map = some (script header) := by
  obtain ⟨map, entered, lookup⟩ := spelled.jsonToMap
  have bytes : Utf16.utf8 (text header.name) = header.name := (spelled.name k header found).utf8
  refine ⟨map, entered, ?_⟩
  rw [getHeader, modCrc32_eq null named, bytes, ← spelled.keyed k header found, lookup, found,
    Option.map_some]

/-- The script finds the header that the record has, by every name but the empty one. -/
theorem same_header_found (fields : List HeaderField) (null : Bool) (name : Utf16.Text)
    (filled : name ≠ []) :
    ∃ json map, Utf16.ofUtf8 (ConnIoReqRes.ofFields fields).headersToJson = some json ∧
      jsonToMap json = some map ∧
      Option.Rel ScriptHeader.Matches (getHeader null name map)
        ((ConnIoReqRes.ofFields fields).getHeader (Utf16.utf8 name)) := by
  have spelled := spelled_ofFields fields
  obtain ⟨map, entered, lookup⟩ := spelled.jsonToMap
  refine ⟨_, map, ?_, entered, ?_⟩
  · rw [headersToJson_eq]
    exact spelled.document.ofUtf8
  · rw [getHeader, modCrc32_eq null filled, lookup, ConnIoReqRes.getHeader]
    cases found : (ConnIoReqRes.ofFields fields).headers[Crc32.checksum (Utf16.utf8 name)]? with
    | none => exact .none
    | some header => exact .some (spelled.matches found)

/-- A name with a quotation mark and a value with an accent. -/
theorem accent_found : ∃ json map,
    Utf16.ofUtf8 (ConnIoReqRes.ofFields [⟨"a\"", "é\n", by decide +kernel⟩]).headersToJson =
      some json ∧
      jsonToMap json = some map ∧
      Option.Rel ScriptHeader.Matches (getHeader false [97, 34] map)
        ((ConnIoReqRes.ofFields [⟨"a\"", "é\n", by decide +kernel⟩]).getHeader (Utf16.utf8 [97, 34])) :=
  same_header_found [⟨"a\"", "é\n", by decide +kernel⟩] false [97, 34] (List.cons_ne_nil _ _)

end HeaderUtils
end Gearsdk
