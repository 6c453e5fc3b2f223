import Gearsdk.ReqRes

/-! The token check of the sample server. The token header is compared with what
Redis answers for the player, over the length of the header. It should be
accepted only where it is the whole stored token. -/
namespace Gearsdk.Authentication

/-- What `GET` answers: nothing where there is no connection or no reply. -/
inductive Reply where
  | noContext
  | noReply
  | nil
  | string (bytes : Qstring)
  | error (text : Qstring)

/-- Every reply is read for its text; that of a missing key is empty. -/
def getValue (reply : Reply) (value : Qstring) : Int × Qstring :=
  match reply with
  | .noContext => (2, value)
  | .noReply => (1, value)
  | .nil => (0, [])
  | .string bytes => (0, Qstring.cString bytes)
  | .error text => (0, Qstring.cString text)

/-- The BSON library as the server uses it on a payload: whether it is JSON at
all, and the text at `user.pid`, empty where that is no string. -/
structure Bson where
  initFromJson : Qstring → Bool
  userPid : Qstring → Option Qstring

def tokenKey (pid : Qstring) : Qstring := Qstring.literal "tokens:" ++ Qstring.cString pid

/-- No result where the assertion on the checksum stops the server; it is there
unless the build defines `NDEBUG`. -/
def validateToken (ndebug : Bool) (bson : Bson) (hiredis : Qstring → Reply)
    (request : ConnIoReqRes) : Option Int :=
  if ndebug || request.validate then
    match request.getHeader (Qstring.literal "token") with
    | none => some (-1)
    | some tokenHeader =>
        if bson.initFromJson request.data then
          match bson.userPid request.data with
          | none => some (-3)
          | some pid =>
              let tokenInRedis := (getValue (hiredis (tokenKey pid)) []).2
              if Qstring.operatorNe tokenInRedis tokenHeader.value then some (-4) else some 0
        else some (-2)
  else none

variable {ndebug : Bool} {bson : Bson} {hiredis : Qstring → Reply} {request : ConnIoReqRes}
variable {tokenHeader : Header} {reply : Reply}

/-- The request carries a token for a player. -/
structure Presents (bson : Bson) (request : ConnIoReqRes) (tokenHeader : Header) (pid : Qstring) :
    Prop where
  header : request.getHeader (Qstring.literal "token") = some tokenHeader
  json : bson.initFromJson request.data = true
  player : bson.userPid request.data = some pid

/-- The token is the whole of a non-empty stored one. -/
def Stored (tokenHeader : Header) (reply : Reply) : Prop :=
  tokenHeader.name = Qstring.literal "token" ∧ tokenHeader.value ≠ [] ∧
    reply = .string tokenHeader.value

/-- What should be accepted. -/
def Authentic (bson : Bson) (hiredis : Qstring → Reply) (request : ConnIoReqRes) : Prop :=
  ∃ tokenHeader pid, Presents bson request tokenHeader pid ∧
    Stored tokenHeader (hiredis (tokenKey pid))

theorem Presents.unique (first : Presents bson request tokenHeader pid)
    (second : Presents bson request tokenHeader' pid') : tokenHeader = tokenHeader' ∧ pid = pid' :=
  ⟨Option.some.inj (first.header.symm.trans second.header),
    Option.some.inj (first.player.symm.trans second.player)⟩

/-- A token is accepted exactly when the text of the reply begins with it. -/
theorem validateToken_accepts :
    validateToken ndebug bson hiredis request = some 0 ↔
      (ndebug || request.validate) = true ∧
        ∃ tokenHeader pid, Presents bson request tokenHeader pid ∧
        tokenHeader.value <+: (getValue (hiredis (tokenKey pid)) []).2 := by
  constructor
  · intro accepted
    simp only [validateToken] at accepted
    split at accepted
    · rename_i passed
      refine ⟨passed, ?_⟩
      split at accepted
      · simp at accepted
      · rename_i tokenHeader header
        split at accepted
        · rename_i json
          split at accepted
          · simp at accepted
          · rename_i pid player
            split at accepted
            · simp at accepted
            · rename_i equal
              refine ⟨tokenHeader, pid, ⟨header, json, player⟩, ?_⟩
              rw [Qstring.operatorNe_iff tokenHeader.clean.2, not_not] at equal
              exact equal.trans (Qstring.cString_prefix _)
        · simp at accepted
    · cases accepted
  · rintro ⟨passed, tokenHeader, pid, presents, begins⟩
    have clean : Qstring.cString (getValue (hiredis (tokenKey pid)) []).2 =
        (getValue (hiredis (tokenKey pid)) []).2 := by
      apply Qstring.cString_of_nul_free
      cases hiredis (tokenKey pid) with
      | string bytes => exact Qstring.cString_clean bytes
      | error text => exact Qstring.cString_clean text
      | _ => simp [getValue]
    have equal : Qstring.operatorNe (getValue (hiredis (tokenKey pid)) []).2 tokenHeader.value =
        false := by
      rw [← Bool.not_eq_true, Qstring.operatorNe_iff tokenHeader.clean.2, not_not, clean]
      exact begins
    simp [validateToken, passed, presents.header, presents.json, presents.player, equal]

/-- The token is no guess: it is not empty and begins no other text that Redis
may answer. -/
def Told (tokenHeader : Header) : Reply → Prop
  | .string stored =>
      tokenHeader.value <+: stored →
        tokenHeader.name = Qstring.literal "token" ∧ tokenHeader.value ≠ [] ∧
          tokenHeader.value = stored
  | .error text => ¬ tokenHeader.value <+: text
  | _ => tokenHeader.value ≠ []

/-- A string without a NUL begins a text where it begins the C string of it. -/
theorem prefix_cString (clean : Qstring.Clean value) :
    value <+: Qstring.cString text ↔ value <+: text := by
  refine ⟨fun begins => begins.trans (Qstring.cString_prefix text), ?_⟩
  rintro ⟨rest, rfl⟩
  rw [Qstring.cString, List.takeWhile_append_of_pos]
  · exact List.prefix_append ..
  · intro byte member
    simpa using clean byte member

theorem told_iff : Told tokenHeader reply ↔
    (tokenHeader.value <+: (getValue reply []).2 → Stored tokenHeader reply) := by
  cases reply with
  | string stored =>
    simp only [Told, getValue, Stored, prefix_cString tokenHeader.clean.2, Reply.string.injEq]
    constructor
    · intro told begins
      obtain ⟨named, full, same⟩ := told begins
      exact ⟨named, full, same.symm⟩
    · intro told begins
      obtain ⟨named, full, same⟩ := told begins
      exact ⟨named, full, same.symm⟩
  | error text => simp [Told, getValue, Stored, prefix_cString tokenHeader.clean.2]
  | noContext | noReply | nil => simp [Told, getValue, Stored]

theorem Stored.begins (stored : Stored tokenHeader reply) :
    tokenHeader.value <+: (getValue reply []).2 := by
  obtain ⟨_, _, rfl⟩ := stored
  exact (prefix_cString tokenHeader.clean.2).mpr (List.prefix_refl _)

/-- The check is right about a request exactly when the token in it is no guess
and the checksum assertion does not stop a right token. -/
theorem token_accepted_iff (ndebug : Bool) (bson : Bson) (hiredis : Qstring → Reply)
    (request : ConnIoReqRes) :
    (validateToken ndebug bson hiredis request = some 0 ↔ Authentic bson hiredis request) ↔
      ∀ tokenHeader pid, Presents bson request tokenHeader pid →
        if ndebug || request.validate then Told tokenHeader (hiredis (tokenKey pid))
        else ¬ Stored tokenHeader (hiredis (tokenKey pid)) := by
  rw [validateToken_accepts]
  constructor
  · intro right tokenHeader pid presents
    split
    · rename_i passed
      refine told_iff.mpr fun begins => ?_
      obtain ⟨other, pid', presents', stored⟩ :=
        right.mp ⟨passed, tokenHeader, pid, presents, begins⟩
      obtain ⟨rfl, rfl⟩ := presents.unique presents'
      exact stored
    · rename_i stopped
      intro stored
      exact stopped (right.mpr ⟨tokenHeader, pid, presents, stored⟩).1
  · intro told
    constructor
    · rintro ⟨passed, tokenHeader, pid, presents, begins⟩
      have told := told tokenHeader pid presents
      rw [if_pos passed] at told
      exact ⟨tokenHeader, pid, presents, told_iff.mp told begins⟩
    · rintro ⟨tokenHeader, pid, presents, stored⟩
      have told := told tokenHeader pid presents
      split at told
      · rename_i passed
        exact ⟨passed, tokenHeader, pid, presents, stored.begins⟩
      · exact absurd stored told

def samplePayload : Qstring := Qstring.literal "\x7b\"user\":\x7b\"pid\":\"p1\"\x7d\x7d"

/-- A request of the player p1 with this token. -/
def sampleRequest (token : Qstring) : ConnIoReqRes :=
  let request : ConnIoReqRes := { data := samplePayload }
  let request :=
    (request.addOrGetHeader (Qstring.literal ":path") (Qstring.literal "/user_details")).1
  let request := (request.addOrGetHeader (Qstring.literal "crc") (Qstring.literal "bc77bc36")).1
  (request.addOrGetHeader (Qstring.literal "token") token).1

def sampleBson : Bson where
  initFromJson text := text = samplePayload
  userPid text := if text = samplePayload then some (Qstring.literal "p1") else none

/-- Redis holds a token for p1 only. -/
def sampleRedis (key : Qstring) : Reply :=
  if key = Qstring.literal "tokens:p1" then .string (Qstring.literal "5ecbd1") else .nil

/-- The beginning of the token is taken for the whole, and so is nothing at all. -/
theorem token_prefix_accepted :
    (validateToken false sampleBson sampleRedis (sampleRequest (Qstring.literal "5e")) = some 0 ∧
      ¬ Authentic sampleBson sampleRedis (sampleRequest (Qstring.literal "5e"))) ∧
    validateToken false sampleBson sampleRedis (sampleRequest []) = some 0 ∧
      ¬ Authentic sampleBson sampleRedis (sampleRequest []) := by
  have unauthentic : ∀ token, (sampleRequest token).getHeader (Qstring.literal "token") =
      some (Header.create (Qstring.literal "token") token) →
        Qstring.cString token ≠ Qstring.literal "5ecbd1" →
      ¬ Authentic sampleBson sampleRedis (sampleRequest token) := by
    rintro token sent wrong ⟨tokenHeader, pid, presents, named, full, stored⟩
    obtain rfl := Option.some.inj (sent.symm.trans presents.header)
    simp only [sampleRedis] at stored
    split at stored
    · exact wrong (Reply.string.inj stored).symm
    · cases stored
  refine ⟨⟨by decide +kernel, unauthentic _ (by decide +kernel) (by decide +kernel)⟩,
    by decide +kernel,
    unauthentic _ (by decide +kernel) (by decide +kernel)⟩

end Gearsdk.Authentication
