import Gearsdk.Qh3router.Expiry
import Gearsdk.Qh3router.Shutdown

/-! The router and the servers that report to it. A server reports when it starts, at
every turn of a timer and when its services have ended. Router and servers are on
one machine: reports may be lost, and those of one server do not overtake each
other. -/
namespace Gearsdk.Qh3router.Fleet

def address (server : SockaddrIn) : Address :=
  (server.sinAddr.dottedQuad, Qstring.unsigned server.sinPort.toNat)

/-- Who is not the command server. -/
abbrev Server (site : Site) := { server : SockaddrIn // address server ≠ site.commandAddress }

inductive Report where
  | start
  | hb
  | shutAck
  deriving DecidableEq

namespace Report

def name : Report → String
  | .start => "qh3server-start-"
  | .hb => "hb-"
  | .shutAck => "shut-ack-"

/-- What `try_report_router` and its like send. -/
def text (report : Report) (server : SockaddrIn) : Qstring :=
  Qstring.literal report.name ++ Qstring.unsigned server.sinPort.toNat

/-- Whether a server is listed after its report, given whether it was before. -/
def apply (listed : Prop) : Report → Prop
  | .start => True
  | .hb => listed
  | .shutAck => False

end Report

structure State (site : Site) where
  state : Qh3router.State
  running : Server site → Bool
  /-- The reports on their way, oldest first. -/
  sent : Server site → List Report

inductive Event (site : Site) where
  | starts (server : Server site)
  | hb (server : Server site)
  | ends (server : Server site)
  /-- The process ends in another way, without a report. -/
  | dies (server : Server site)
  | delivered (now : Rat) (server : Server site)
  | lost (server : Server site)
  /-- What is no report of a server. -/
  | router (event : Qh3router.Event)

variable {site : Site}

/-- No server sends this. -/
def Unreported (site : Site) : Qh3router.Event → Prop
  | .feedback _ clientAddr _ => ∀ sender ∈ getnameinfo clientAddr, sender = site.commandAddress
  | _ => True

instance : ∀ event, Decidable (Unreported site event)
  | .feedback _ clientAddr _ =>
    inferInstanceAs (Decidable (∀ sender ∈ getnameinfo clientAddr, sender = site.commandAddress))
  | .wouldBlock | .timer _ _ | .packet _ | .request _ => .isTrue trivial

/-- Two processes cannot be bound to one address. -/
def enabled (s : State site) : Event site → Prop
  | .starts server => s.running server = false
  | .hb server | .ends server | .dies server => s.running server = true
  | .delivered _ server =>
    s.sent server ≠ [] ∧ (s.state.inCallback = true ∨ s.state.router.broken = false)
  | .lost server => s.sent server ≠ []
  | .router event => Unreported site event ∧ Qh3router.enabled s.state event

instance (s : State site) : ∀ event, Decidable (enabled s event)
  | .starts server => inferInstanceAs (Decidable (s.running server = false))
  | .hb server | .ends server | .dies server =>
    inferInstanceAs (Decidable (s.running server = true))
  | .delivered _ server =>
      inferInstanceAs (Decidable (s.sent server ≠ [] ∧
        (s.state.inCallback = true ∨ s.state.router.broken = false)))
  | .lost server => inferInstanceAs (Decidable (s.sent server ≠ []))
  | .router event =>
    inferInstanceAs (Decidable (Unreported site event ∧ Qh3router.enabled s.state event))

def State.report (s : State site) (server : Server site) (report : Report) : State site :=
  { s with sent := Function.update s.sent server (s.sent server ++ [report]) }

def next (site : Site) (s : State site) : Event site → Except Fault (State site)
  | .starts server =>
    .ok { s.report server .start with running := Function.update s.running server true }
  | .hb server => .ok (s.report server .hb)
  | .ends server =>
    .ok { s.report server .shutAck with running := Function.update s.running server false }
  | .dies server => .ok { s with running := Function.update s.running server false }
  | .delivered now server =>
      match s.sent server with
      | [] => .ok s
      | report :: rest => do
          let state ← Qh3router.next site s.state (.feedback now server.1.bytes (report.text server.1))
          .ok { s with state, sent := Function.update s.sent server rest }
  | .lost server => .ok { s with sent := Function.update s.sent server (s.sent server).tail }
  | .router event => do
      let state ← Qh3router.next site s.state event
      .ok { s with state }

/-- The servers that the router has spawned are about to report. -/
def init (site : Site) : State site :=
  let state := Qh3router.init site
  { state
    running := fun server => state.announced.contains (address server.1)
    sent := fun server => if state.announced.contains (address server.1) then [.start] else [] }

def machine (site : Site) : Transition.Machine (State site) (Event site) Fault where
  init := init site
  enabled := enabled
  next := next site

instance (s : State site) (event : Event site) : Decidable ((machine site).enabled s event) :=
  inferInstanceAs (Decidable (enabled s event))

/-- The router has a route to the server. -/
def State.Lists (s : State site) (server : Server site) : Prop :=
  s.state.router.Holds s.state.router.entries (address server.1)

/-- The router has one once it has all the reports on their way. -/
def State.WillList (s : State site) (server : Server site) : Prop :=
  (s.sent server).foldl Report.apply (s.Lists server)

def Agrees (s : State site) : Prop := ∀ server, s.WillList server ↔ s.running server = true

/-- Something other than a heartbeat is among the reports. -/
def Decided (reports : List Report) : Prop := ∃ report ∈ reports, report ≠ .hb

/-- No server ends without a report, none that matters is lost, and no route expires
whose server reports no start or end. -/
def Harmless (s : State site) : Event site → Prop
  | .dies _ => False
  | .lost server => ∀ report rest, s.sent server = report :: rest →
    (report.apply (s.Lists server) ↔ s.Lists server) ∨ Decided rest
  | .router (.timer now timeout) => ∀ server : Server site,
      Expires site.destroyRoutes s.state.router now timeout (address server.1) →
        Decided (s.sent server)
  | _ => True

/-! ### Reports -/

theorem dottedQuad_injective {ip ip' : InAddr} (same : ip.dottedQuad = ip'.dottedQuad) :
    ip = ip' := by
  have parts := congrArg (Qstring.split · [46] true) same
  simp only [Qaddress.split_dottedQuad, List.cons.injEq, and_true] at parts
  obtain ⟨a, b, c, d⟩ := parts
  have octet {x y : UInt8} (same : Qstring.unsigned x.toNat = Qstring.unsigned y.toNat) : x = y :=
    UInt8.toNat_inj.mp (unsigned_injective same)
  obtain ⟨_, _, _, _⟩ := ip
  obtain ⟨_, _, _, _⟩ := ip'
  simp only [InAddr.mk.injEq]
  exact ⟨octet a, octet b, octet c, octet d⟩

theorem address_injective {server other : SockaddrIn} (same : address server = address other) :
    server = other := by
  obtain ⟨quad, port⟩ := Prod.mk.inj same
  obtain ⟨sinPort, sinAddr⟩ := server
  obtain ⟨sinPort', sinAddr'⟩ := other
  cases dottedQuad_injective quad
  cases UInt16.toNat_inj.mp (unsigned_injective port)
  rfl

theorem clean_address (server : SockaddrIn) :
    Qstring.Clean (address server).1 ∧ Qstring.Clean (address server).2 :=
  getnameinfo_clean server.getnameinfo_bytes

theorem cString_text (report : Report) (server : SockaddrIn) :
    Qstring.cString (report.text server) = report.text server := by
  have clean : Qstring.Clean (Qstring.literal report.name) := by cases report <;> decide +kernel
  apply Qstring.cString_of_nul_free
  intro byte inside
  rcases List.mem_append.mp inside with first | second
  · exact clean byte first
  · exact Qstring.clean_of_digits (Qstring.unsigned_digits _) byte second

/-- A report is taken for what it is. -/
theorem isCommand_text (report other : Report) (server : SockaddrIn) :
    isCommand (Qstring.cString (report.text server)) other.name (address server).2 =
      decide (other = report) := by
  have clean : Qstring.Clean (Qstring.literal other.name) := by cases other <;> decide +kernel
  have different : other ≠ report → Qstring.literal report.name ≠ Qstring.literal other.name := by
    cases other <;> cases report <;> decide +kernel
  have same : isCommand (Qstring.cString (report.text server)) other.name (address server).2 =
      true ↔ other = report := by
    rw [isCommand_iff clean, cString_text, cString_text,
      Qstring.cString_of_nul_free (clean_address server).2, Report.text]
    constructor
    · intro texts
      by_contra unequal
      exact different unequal (List.append_cancel_right texts)
    · rintro rfl
      rfl
  rw [Bool.eq_iff_iff, same, decide_eq_true_iff]

theorem hasAddress_commandRoute {router : Qh3router} (commanded : Commanded site router)
    (server : Server site) :
    (router.commandRoute.any fun center =>
      hasAddress center (address server.1).1 (address server.1).2) = false := by
  cases found : router.commandRoute with
  | none => rfl
  | some center =>
    have same := commanded.address center found
    have clean : Qstring.Clean center.host ∧ Qstring.Clean center.port := by
      obtain ⟨host, port⟩ := Prod.mk.inj same
      rw [host, port]
      exact ⟨Qstring.cString_clean _, Qstring.cString_clean _⟩
    rw [Option.any_some, ← Bool.not_eq_true,
      hasAddress_iff clean (clean_address server.1).1 (clean_address server.1).2, same]
    exact server.2.symm

/-- A report changes whether its sender is announced, and nothing else. -/
theorem mem_announce_text {router : Qh3router} {announced : List Address}
    (commanded : Commanded site router) (server : Server site) (report : Report) (other : Address) :
    other ∈ router.announce announced server.1.bytes (Qstring.cString (report.text server.1)) ↔
      if other = address server.1 then report.apply (other ∈ announced) else other ∈ announced := by
  have named : getnameinfo server.1.bytes = some (address server.1) := server.1.getnameinfo_bytes
  have stranger := hasAddress_commandRoute commanded server
  have start : isCommand _ "qh3server-start-" _ = _ := isCommand_text report .start server.1
  have shutAck : isCommand _ "shut-ack-" _ = _ := isCommand_text report .shutAck server.1
  simp only [announce, named, stranger, start, shutAck, true_and]
  cases report with
  | start =>
    simp only [reduceCtorEq, decide_false, Bool.false_eq_true, if_false, decide_true, true_and,
      Report.apply]
    by_cases known : address server.1 ∈ announced
    · simp only [known, not_true_eq_false, if_false, iff_def]
      split
      · rename_i same
        simp only [same, known, implies_true, and_self]
      · exact ⟨id, id⟩
    · simp only [known, not_false_eq_true, if_true, List.mem_append, List.mem_singleton]
      by_cases same : other = address server.1
      · simp only [same, or_true, if_true]
      · simp only [same, or_false, if_false]
  | hb => simp only [reduceCtorEq, decide_false, Bool.false_eq_true, if_false, false_and,
    Report.apply, ite_self]
  | shutAck =>
    simp only [decide_true, if_true, List.mem_filter, decide_eq_true_eq, Report.apply]
    by_cases same : other = address server.1
    · simp only [same, ne_eq, not_true_eq_false, and_false, if_true]
    · simp only [same, ne_eq, not_false_eq_true, and_true, if_false]

theorem mem_announce_of_unreported {router : Qh3router} {announced : List Address}
    {clientAddr : Sockaddr}
    (unreported : ∀ sender ∈ getnameinfo clientAddr, sender = site.commandAddress)
    (server : Server site) (cmd : Qstring) :
    address server.1 ∈ router.announce announced clientAddr cmd ↔ address server.1 ∈ announced := by
  simp only [announce]
  cases named : getnameinfo clientAddr with
  | none => rfl
  | some sender =>
    have other : address server.1 ≠ (sender.1, sender.2) :=
      fun same => server.2 (same.trans (unreported sender named))
    dsimp only
    split
    · simp only [List.mem_filter, decide_eq_true_eq, ne_eq, other, not_false_eq_true, and_true]
    · split
      · simp only [List.mem_append, List.mem_singleton, other, or_false]
      · rfl

/-! ### Reports on their way -/

theorem decided_cons (report : Report) (rest : List Report) :
    Decided (report :: rest) ↔ report ≠ .hb ∨ Decided rest := by
  simp only [Decided, List.mem_cons, exists_eq_or_imp]

/-- What was listed before makes no difference if and only if a start or an end follows. -/
theorem foldl_apply_iff (reports : List Report) (p q : Prop) :
    (reports.foldl Report.apply p ↔ reports.foldl Report.apply q) ↔ (p ↔ q) ∨ Decided reports := by
  induction reports generalizing p q with
  | nil => simp only [List.foldl_nil, Decided, List.not_mem_nil, false_and, exists_false, or_false]
  | cons report rest ih =>
    rw [List.foldl_cons, List.foldl_cons, ih, decided_cons]
    cases report with
    | hb => simp only [Report.apply, ne_eq, not_true_eq_false, false_or]
    | start => simp only [Report.apply, ne_eq, reduceCtorEq, not_false_eq_true, true_or, or_true]
    | shutAck => simp only [Report.apply, ne_eq, reduceCtorEq, not_false_eq_true, true_or, or_true]

theorem foldl_apply_of_not_mem {reports : List Report} {p : Prop} (unsaid : .shutAck ∉ reports)
    (listed : p) :
    reports.foldl Report.apply p := by
  induction reports generalizing p with
  | nil => exact listed
  | cons report rest ih =>
    obtain ⟨here, later⟩ := not_or.mp (mt List.mem_cons.mpr unsaid)
    cases report with
    | start => exact ih later trivial
    | hb => exact ih later listed
    | shutAck => exact absurd rfl here

theorem of_foldl_apply {reports : List Report} {p : Prop} (unsaid : .start ∉ reports)
    (listed : reports.foldl Report.apply p) : p := by
  induction reports generalizing p with
  | nil => exact listed
  | cons report rest ih =>
    obtain ⟨here, later⟩ := not_or.mp (mt List.mem_cons.mpr unsaid)
    cases report with
    | start => exact absurd rfl here
    | hb => exact ih later listed
    | shutAck => exact (ih later listed).elim

theorem willList_report (s : State site) (server : Server site) (report : Report)
    (other : Server site) :
    (s.report server report).WillList other ↔ if other = server then report.apply (s.WillList other)
      else s.WillList other := by
  simp only [State.WillList, State.report]
  by_cases same : other = server
  · subst same
    rw [if_pos rfl, Function.update_self, List.foldl_append]
    rfl
  · rw [if_neg same, Function.update_of_ne same]
    rfl

end Gearsdk.Qh3router.Fleet
