import Gearsdk.Qh3client.Body

/-! Whether the checksum of a request that arrives whole is checked as it is made. The
client prints the CRC-32 of the payload; the server scans the text it receives into a zero
and does not ask whether the scan found a number or reached the end. -/
namespace Gearsdk
open Qstring

/-- `conn_io_req_res::create` of a path and a payload. -/
def ConnIoReqRes.create (path payload : Qstring) : ConnIoReqRes :=
  let header := Header.create (literal ":path") path
  (({} : ConnIoReqRes).addOrGetHeader header.name header.value).1.setPayload payload

/-! ### Numbers in hexadecimal -/

variable {n : Nat} {digits : List Nat}

/-- The digits of a number, the highest first. -/
theorem toDigits_hex (n : Nat) : ∃ digits : List Nat, Nat.toDigits 16 n = digits.map Nat.digitChar ∧
    (∀ d ∈ digits, d < 16) ∧ digits.foldl (fun n d => 16 * n + d) 0 = n := by
  induction n using Nat.strongRecOn with
  | ind n ih =>
    rw [Nat.toDigits_eq_if (by decide)]
    split
    · rename_i short
      exact ⟨[n], rfl, by simpa using short, by simp⟩
    · rename_i long
      obtain ⟨digits, texts, small, value⟩ := ih (n / 16) (by omega)
      refine ⟨digits ++ [n % 16], by rw [texts, List.map_append]; rfl, ?_, ?_⟩
      · rw [List.forall_mem_append]
        exact ⟨small, by simpa using Nat.mod_lt n (by decide)⟩
      · rw [List.foldl_append, value]
        exact Nat.div_add_mod n 16

def hexByte (d : Nat) : UInt8 := UInt8.ofNat d.digitChar.toNat

/-- A digit is neither a blank nor a sign nor the mark of a base. -/
theorem hexByte_table : ∀ d < 16, ConnIoReqRes.hexDigit? (hexByte d) = some d ∧
    ConnIoReqRes.isSpace (hexByte d) = false ∧ hexByte d ∉ [43, 45, 88, 120] ∧
      d.digitChar.toNat < 128 := by
  decide

theorem hexadecimal_eq (small : ∀ d ∈ digits, d < 16)
    (texts : Nat.toDigits 16 n = digits.map Nat.digitChar) :
    hexadecimal n = digits.map hexByte := by
  have ascii : ∀ c ∈ digits.map Nat.digitChar, c.toNat < 128 := by
    intro c member
    obtain ⟨d, inside, rfl⟩ := List.mem_map.mp member
    exact (hexByte_table d (small d inside)).2.2.2
  rw [hexadecimal, texts, literal_ofList ascii, List.map_map]
  rfl

theorem scanHex_digits (small : ∀ d ∈ digits, d < 16) (short : digits.length ≤ 8) :
    ConnIoReqRes.scanHex (digits.map hexByte) = digits.foldl (fun n d => 16 * n + d) 0 := by
  have bytes : ∀ byte ∈ digits.map hexByte, ConnIoReqRes.isSpace byte = false ∧
      byte ∉ [43, 45, 88, 120] := by
    intro byte member
    obtain ⟨d, inside, rfl⟩ := List.mem_map.mp member
    exact ⟨(hexByte_table d (small d inside)).2.1, (hexByte_table d (small d inside)).2.2.1⟩
  have values : (digits.map hexByte).map ConnIoReqRes.hexDigit? = digits.map some := by
    rw [List.map_map]
    exact List.map_congr_left fun d inside => (hexByte_table d (small d inside)).1
  have field : ((digits.map hexByte).dropWhile ConnIoReqRes.isSpace).take 8 =
      digits.map hexByte := by
    cases digits with
    | nil => rfl
    | cons d rest =>
      rw [List.map_cons, List.dropWhile_cons_of_neg (by rw [(bytes _ List.mem_cons_self).1]; decide)]
      exact List.take_of_length_le (by simpa using short)
  have unsigned (sign : UInt8) (other : sign ∈ [43, 45, 88, 120]) : (digits.map hexByte).head? ≠
      some sign := by
    intro first
    exact (bytes sign (List.mem_of_head? first)).2 other
  have unmarked (mark : UInt8) (other : mark ∈ [43, 45, 88, 120]) : (digits.map hexByte).take 2 ≠
      [48, mark] := by
    intro start
    have inside : mark ∈ (digits.map hexByte).take 2 := by
      rw [start]
      exact List.mem_cons_of_mem _ (List.mem_singleton_self mark)
    exact (bytes mark (List.mem_of_mem_take inside)).2 other
  simp only [ConnIoReqRes.scanHex, field, unsigned 45 (by decide), unsigned 43 (by decide),
    unmarked 120 (by decide), unmarked 88 (by decide), or_self, if_false, values]
  rw [List.takeWhile_eq_self_iff.mpr (by simp), List.foldl_map]
  rfl

/-- A number of 32 bits is scanned as it was printed. -/
theorem scanHex_hexadecimal (small : n < 2 ^ 32) : ConnIoReqRes.scanHex (hexadecimal n) = n := by
  obtain ⟨digits, texts, fits, value⟩ := toDigits_hex n
  have eight : (Nat.toDigits 16 n).length ≤ 8 :=
    (Nat.length_toDigits_le_iff (by decide) (by decide)).mpr small
  have short : digits.length ≤ 8 := by rwa [texts, List.length_map] at eight
  rw [hexadecimal_eq fits texts, scanHex_digits fits short, value]

/-! ### The records of requests -/

/-- The polled event for a write that arrives whole. -/
def H3Sent.arrival : H3Sent → H3Event
  | .request fields _ => .headers fields
  | .body bytes _ => .data [bytes]

/-- The request record of a server connection on which the writes arrive. -/
def arrived (s : Int) (sent : List H3Sent) : ConnIoReqRes :=
  ((sent.map H3Sent.arrival).foldl (fun conn event => conn.receive s event) ({} : ConnIoQh3)).httpRequest

namespace ConnIoReqRes

/-- A header is looked up in a message from its front. -/
theorem getHeader_addHeaders_cons (name value sought : Qstring)
    (fields : List (Qstring × Qstring)) :
    (({} : ConnIoReqRes).addHeaders ((name, value) :: fields)).getHeader sought =
      if Crc32.checksum (cString name) = Crc32.checksum sought then
        some (Header.create (cString name) (cString value))
      else (({} : ConnIoReqRes).addHeaders fields).getHeader sought := by
  simp only [getHeader]
  refine (lookup_addHeaders (({} : ConnIoReqRes).addOrGetHeader (cString name)
    (cString value)).1 fields _).trans ?_
  rw [lookup_addOrGetHeader, OrderedMap.lookup_empty, Option.none_or]
  split
  · rfl
  · rfl

theorem getHeader_method (value : Qstring) (fields : List (Qstring × Qstring)) :
    (({} : ConnIoReqRes).addHeaders ((literal ":method", value) :: fields)).getHeader
    (literal ":method") =
      some (Header.create (cString (literal ":method")) (cString value)) := by
  have same : Crc32.checksum (cString (literal ":method")) =
    Crc32.checksum (literal ":method") := by decide +kernel
  rw [getHeader_addHeaders_cons, if_pos same]

/-- The names that the client sets itself, beside `crc`. -/
def fixedNames : List String := [":method", ":scheme", ":authority", "user-agent", "content-length"]

def fixedFields (fixed : List (String × Qstring)) : List (Qstring × Qstring) :=
  fixed.map fun header => (literal header.1, header.2)

/-- No fixed header of the client but `crc` goes by the checksum of that name. -/
theorem getHeader_crc (fixed : List (String × Qstring))
    (others : ∀ header ∈ fixed, header.1 ∈ fixedNames) (value : Qstring)
    (fields : List (Qstring × Qstring)) :
    (({} : ConnIoReqRes).addHeaders (fixedFields fixed ++ (literal "crc", value) ::
    fields)).getHeader (literal "crc") =
      some (Header.create (cString (literal "crc")) (cString value)) := by
  have same : Crc32.checksum (cString (literal "crc")) = Crc32.checksum (literal "crc") := by
    decide +kernel
  have apart : ∀ name ∈ fixedNames, Crc32.checksum (cString (literal name)) ≠
      Crc32.checksum (literal "crc") := by
    decide +kernel
  induction fixed with
  | nil => rw [fixedFields, List.map_nil, List.nil_append, getHeader_addHeaders_cons, if_pos same]
  | cons header rest ih =>
    rw [fixedFields, List.map_cons, List.cons_append, getHeader_addHeaders_cons,
      if_neg (apart _ (others _ List.mem_cons_self))]
    exact ih fun header later => others header (List.mem_cons_of_mem _ later)

theorem hexadecimal_clean (n : Nat) : Clean (hexadecimal n) := by
  obtain ⟨digits, texts, small, _⟩ := toDigits_hex n
  rw [hexadecimal_eq small texts]
  rintro byte member rfl
  obtain ⟨d, inside, zero⟩ := List.mem_map.mp member
  have table : ∀ d < 16, hexByte d ≠ 0 := by decide
  exact table d (small d inside) zero

/-- A message is accepted that has a method and the checksum as the client prints it. -/
theorem validate_addHeaders (method payload : Qstring) (fixed : List (String × Qstring))
    (others : ∀ header ∈ fixed, header.1 ∈ fixedNames) (fields : List (Qstring × Qstring)) :
    ({ ({} : ConnIoReqRes).addHeaders (fixedFields ((":method", method) :: fixed) ++
        (literal "crc", hexadecimal (Crc32.checksum payload)) :: fields) with data := payload } :
      ConnIoReqRes).validate = true := by
  have crc := getHeader_crc ((":method", method) :: fixed)
    (List.forall_mem_cons.mpr ⟨List.mem_cons_self, others⟩)
    (hexadecimal (Crc32.checksum payload)) fields
  have verb := getHeader_method method (fixedFields fixed ++
    (literal "crc", hexadecimal (Crc32.checksum payload)) :: fields)
  simp only [getHeader, fixedFields, List.map_cons, List.cons_append] at crc verb ⊢
  simp only [validate, getHeader, crc, verb, Header.create,
    cString_of_nul_free (hexadecimal_clean _)]
  split
  · rename_i empty
    rw [List.length_eq_zero_iff.mp empty]
    decide +kernel
  · rw [scanHex_hexadecimal (Crc32.checksum_lt payload)]
    exact decide_eq_true rfl

end ConnIoReqRes

namespace Qh3client
open ConnIoReqRes

variable {data : ConnIoReqRes} {host : Qstring} {window : Nat}

theorem arrived_get (s : Int) (host : Qstring) (empty : data.data = []) :
    arrived s (sendGetHttpRequest host data) =
      { ({} : ConnIoReqRes).addHeaders
        (fixedFields ((":method", literal "GET") :: [(":scheme", literal "https"),
          (":authority", cString host),
          ("user-agent", literal "quiche")]) ++
          (literal "crc", hexadecimal (Crc32.checksum data.data)) ::
            customFields data) with data := data.data } := by
  have blank (record : ConnIoReqRes) (none_yet : record.data = []) :
      record = { record with data := [] } := by
    rw [← none_yet]
  simp only [arrived, sendGetHttpRequest, fixedFields, List.map_cons, List.map_nil, List.foldl_cons,
    List.foldl_nil, H3Sent.arrival, ConnIoQh3.receive, List.cons_append, List.nil_append, empty]
  exact blank _ (data_addHeaders _ _)

theorem arrived_post (s : Int) (host : Qstring) (clean : Clean data.data)
    (room : data.data.length ≤ window) (post : data.data.length ≠ 0) :
    arrived s (sendPostHttpRequest host data window) =
      { ({} : ConnIoReqRes).addHeaders
        (fixedFields ((":method", literal "POST") :: [(":scheme", literal "https"),
          (":authority", cString host),
          ("user-agent", literal "quiche"), ("content-length", decimal data.data.length)]) ++
          (literal "crc", hexadecimal (Crc32.checksum data.data)) ::
            customFields data) with data := data.data } := by
  have opened : window ≠ 0 := by omega
  simp only [arrived, sendPostHttpRequest, if_neg opened, List.take_of_length_le room, fixedFields,
    List.map_cons, List.map_nil, List.foldl_cons, List.foldl_nil, H3Sent.arrival, ConnIoQh3.receive,
    List.cons_append, List.nil_append, setPayload, cString_of_nul_free clean]

/-- A request that arrives whole is accepted. -/
theorem validate_arrived (s : Int) (host : Qstring) (clean : Clean data.data)
    (room : data.data.length ≤ window) :
    (arrived s (request host data window)).validate = true := by
  simp only [request]
  split
  · rename_i post
    have something : data.data.length ≠ 0 := Nat.ne_of_gt (of_decide_eq_true post)
    rw [arrived_post s host clean room something]
    exact validate_addHeaders _ _ _ (by simp [fixedNames]) _
  · rename_i get
    have empty : data.data = [] := by simpa [isPostrequest] using get
    rw [arrived_get s host empty]
    exact validate_addHeaders _ _ _ (by simp [fixedNames]) _

end Qh3client

/-- What the client builds is accepted, and of all records none that has another text for
the checksum than the client would print. -/
structure ChecksumExact (host path payload : Qstring) (record : ConnIoReqRes) : Prop where
  accepts : ∀ s window, (ConnIoReqRes.create path payload).data.length ≤ window →
    (arrived s (Qh3client.request host (ConnIoReqRes.create path payload) window)).validate = true
  exact : record.validate = true →
    ∃ crc, record.getHeader (literal "crc") = some crc ∧
      crc.value = hexadecimal (Crc32.checksum record.data)

namespace ConnIoReqRes

variable {record : ConnIoReqRes} {crc : Header}

theorem validate_body (found : record.getHeader (literal "crc") = some crc)
    (body : record.data ≠ []) :
    record.validate = true ↔ scanHex crc.value = Crc32.checksum record.data := by
  have something : ¬ record.data.length = 0 := fun empty => body (List.length_eq_zero_iff.mp empty)
  simp only [validate, found, if_neg something, decide_eq_true_eq]

/-- Without a payload the text is compared, not scanned. -/
theorem printed_of_empty (empty : record.data = []) (accepted : record.validate = true) :
    ∃ crc, record.getHeader (literal "crc") = some crc ∧
      crc.value = hexadecimal (Crc32.checksum record.data) := by
  cases found : record.getHeader (literal "crc") with
  | none =>
    simp only [validate, found] at accepted
    contradiction
  | some crc =>
    refine ⟨crc, rfl, ?_⟩
    have zero : hexadecimal (Crc32.checksum []) = literal "0" := by decide +kernel
    have clean : Clean (literal "0") := by decide +kernel
    simp only [validate, found, empty, List.length_nil, if_true] at accepted
    split at accepted
    · contradiction
    · rw [empty, zero]
      exact (operatorEq_iff crc.clean.2 clean).mp accepted

/-- A record with a payload is accepted on another text than the client would print just
when that text is not a number as it is printed and yet is scanned as the checksum. -/
theorem checksum_exact_iff (host path payload : Qstring) (record : ConnIoReqRes) :
    ChecksumExact host path payload record ↔
      (record.data ≠ [] → ∀ crc, record.getHeader (literal "crc") = some crc →
        (∃ n < 2 ^ 32, crc.value = hexadecimal n) ∨
          scanHex crc.value ≠ Crc32.checksum record.data) := by
  constructor
  · rintro ⟨_, exact⟩ body crc found
    by_cases scanned : scanHex crc.value = Crc32.checksum record.data
    · obtain ⟨kept, again, printed⟩ := exact ((validate_body found body).mpr scanned)
      obtain rfl := Option.some.inj (found.symm.trans again)
      exact .inl ⟨_, Crc32.checksum_lt _, printed⟩
    · exact .inr scanned
  · intro canonical
    refine ⟨fun s window room => Qh3client.validate_arrived s host (cString_clean _) room,
      fun accepted => ?_⟩
    by_cases empty : record.data = []
    · exact printed_of_empty empty accepted
    · cases found : record.getHeader (literal "crc") with
      | none =>
        simp only [validate, found] at accepted
        contradiction
      | some crc =>
        have scanned := (validate_body found empty).mp accepted
        refine ⟨crc, rfl, ?_⟩
        rcases canonical empty crc found with ⟨n, small, printed⟩ | other
        · rw [printed, ← scanned, printed, scanHex_hexadecimal small]
        · exact absurd scanned other

/-- Four bytes with the checksum zero, on a text without a digit. -/
def unscanned : ConnIoReqRes :=
  (({} : ConnIoReqRes).addHeaders [(literal ":method", literal "POST"),
    (literal "crc", literal "zz")]).setPayload
    [0x9d, 0x0a, 0xd9, 0x6d]

/-- The scan of `zz` leaves the zero. -/
theorem text_without_digit_accepted :
    unscanned.validate = true ∧ ¬ ∀ host path payload record,
      ChecksumExact host path payload record := by
  have accepted : unscanned.validate = true := by decide +kernel
  refine ⟨accepted, fun exact => ?_⟩
  obtain ⟨crc, found, printed⟩ := (exact [] [] [] unscanned).exact accepted
  have text : (unscanned.getHeader (literal "crc")).map Header.value = some (literal "zz") := by
    decide +kernel
  rw [found, Option.map_some, printed] at text
  exact absurd text (by decide +kernel)

end ConnIoReqRes
end Gearsdk
