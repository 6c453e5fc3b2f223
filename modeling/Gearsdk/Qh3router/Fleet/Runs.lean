import Gearsdk.Qh3router.Fleet

/-! The router's view of its servers over whole runs. -/
namespace Gearsdk.Qh3router.Fleet

variable {site : Site} {s t : State site}

theorem lists_iff (inStep : InStep s.state) (server : Server site) :
    s.Lists server ↔ address server.1 ∈ s.state.announced :=
  inStep.2 _

theorem delivered_inv (step : (machine site).Step s (.delivered now server) t) :
    ∃ report rest state, s.sent server = report :: rest ∧
      (Qh3router.machine site).Step s.state (.feedback now server.1.bytes (report.text server.1)) state ∧
      t = { s with state, sent := Function.update s.sent server rest } := by
  have possible : s.sent server ≠ [] ∧
    (s.state.inCallback = true ∨ s.state.router.broken = false) := step.1
  have ok : next site s (.delivered now server) = .ok t := step.2
  cases sent : s.sent server with
  | nil => exact absurd sent possible.1
  | cons report rest =>
    cases moved : Qh3router.next site s.state (.feedback now server.1.bytes (report.text server.1)) with
    | error fault =>
      simp only [next, sent, moved, bind, Except.bind] at ok
      cases ok
    | ok state =>
      simp only [next, sent, moved, bind, Except.bind] at ok
      exact ⟨report, rest, state, rfl, ⟨possible.2, moved⟩, (Except.ok.inj ok).symm⟩

theorem router_inv (step : (machine site).Step s (.router event) t) :
    ∃ state, Unreported site event ∧ (Qh3router.machine site).Step s.state event state ∧
      t = { s with state } := by
  have possible : Unreported site event ∧ Qh3router.enabled s.state event := step.1
  have ok : next site s (.router event) = .ok t := step.2
  cases moved : Qh3router.next site s.state event with
  | error fault =>
    simp only [next, moved, bind, Except.bind] at ok
    cases ok
  | ok state =>
    simp only [next, moved, bind, Except.bind] at ok
    exact ⟨state, possible.1, ⟨possible.2, moved⟩, (Except.ok.inj ok).symm⟩

theorem step_ordered (ordered : Ordered site s.state) (step : (machine site).Step s event t) :
    Ordered site t.state := by
  have inner {event' t'} (step : (Qh3router.machine site).Step s.state event' t') :
    Ordered site t' :=
    ⟨step_inStep ordered.1 step, step_commanded ordered.1 ordered.2 step⟩
  cases event with
  | starts | hb | ends | dies | lost =>
    cases Except.ok.inj step.2
    exact ordered
  | delivered now server =>
    obtain ⟨_, _, _, _, moved, rfl⟩ := delivered_inv step
    exact inner moved
  | router event =>
    obtain ⟨_, _, moved, rfl⟩ := router_inv step
    exact inner moved

theorem run_ordered (run : (machine site).Run es s) : Ordered site s.state :=
  run.invariant (P := fun s => Ordered site s.state) step_ordered
    ⟨init_inStep site, init_commanded site⟩

/-- Of the senders of reports, only this one is listed differently afterwards. -/
theorem lists_delivered {now : Rat} {server : Server site} {report : Report}
    {state : Qh3router.State} (ordered : Ordered site s.state)
    (moved : (Qh3router.machine site).Step s.state
      (.feedback now server.1.bytes (report.text server.1)) state)
    (sent : Server site → List Report) (other : Server site) :
    State.Lists { s with state, sent } other ↔
      if other = server then report.apply (s.Lists other) else s.Lists other := by
  have inStep : InStep state := step_inStep ordered.1 moved
  have same : address other.1 = address server.1 ↔ other = server :=
    ⟨fun same => Subtype.ext (address_injective same),
      congrArg fun server : Server site => address server.1⟩
  have announced : state.announced =
      s.state.router.announce s.state.announced server.1.bytes
        (Qstring.cString (report.text server.1)) := by
    have ok : Qh3router.next site s.state (.feedback now server.1.bytes (report.text server.1)) =
      .ok state := moved.2
    cases result : s.state.router.cmdFeedbackFromClient now server.1.bytes
        (Qstring.cString (report.text server.1)) with
    | error fault =>
      simp only [Qh3router.next, result, bind, Except.bind] at ok
      cases ok
    | ok router =>
      simp only [Qh3router.next, result, bind, Except.bind] at ok
      cases Except.ok.inj ok
      rfl
  have after := @mem_announce_text site _ s.state.announced ordered.2 server report (address other.1)
  rw [← announced] at after
  rw [lists_iff inStep, after, lists_iff ordered.1]
  simp only [same]

/-- Apart from reports, only the expiry of its route changes whether a server is listed. -/
theorem lists_router (ordered : Ordered site s.state) (unreported : Unreported site event)
    (moved : (Qh3router.machine site).Step s.state event state) (server : Server site) :
    State.Lists { s with state } server ↔ s.Lists server ∧
      ∀ now timeout, event = .timer now timeout →
        ¬ Expires site.destroyRoutes s.state.router now timeout (address server.1) := by
  have inStep : InStep state := step_inStep ordered.1 moved
  have ok : Qh3router.next site s.state event = .ok state := moved.2
  rw [lists_iff inStep, lists_iff ordered.1]
  cases event with
  | feedback now clientAddr datagram =>
    simp only [reduceCtorEq, false_imp_iff, implies_true, and_true]
    cases result : s.state.router.cmdFeedbackFromClient now clientAddr (Qstring.cString datagram) with
    | error fault =>
      simp only [Qh3router.next, result, bind, Except.bind] at ok
      cases ok
    | ok router =>
      simp only [Qh3router.next, result, bind, Except.bind] at ok
      cases Except.ok.inj ok
      exact mem_announce_of_unreported unreported server _
  | timer now timeout =>
    cases result : s.state.router.checkAndRemoveUnresponsiveRoutes site.destroyRoutes now timeout with
    | error fault =>
      simp only [Qh3router.next, result, bind, Except.bind] at ok
      cases ok
    | ok router =>
      simp only [Qh3router.next, result, bind, Except.bind] at ok
      cases Except.ok.inj ok
      have expires := destroyedAt_check ordered.1.1 result (address server.1)
      rw [List.mem_filter, Bool.not_eq_true', ← Bool.not_eq_true, expires]
      refine and_congr_right fun _ => ⟨fun kept => ?_, fun kept => kept now timeout rfl⟩
      rintro _ _ ⟨⟩
      exact kept
  | wouldBlock | packet _ | request _ =>
    cases Except.ok.inj ok
    simp only [reduceCtorEq, false_imp_iff, implies_true, and_true]

theorem Expires.lists {now : Rat} {timeout : Int} {server : Server site}
    (expires : Expires site.destroyRoutes s.state.router now timeout (address server.1)) :
    s.Lists server := by
  obtain ⟨_, ptr, inside, route, found, same, _⟩ := expires
  exact ⟨ptr, inside, route, found, same⟩

theorem willList_delivered (ordered : Ordered site s.state)
    (step : (machine site).Step s (.delivered now server) t) (other : Server site) :
    t.WillList other ↔ s.WillList other := by
  obtain ⟨report, rest, state, sent, moved, rfl⟩ := delivered_inv step
  have lists := lists_delivered ordered moved (Function.update s.sent server rest) other
  rw [State.WillList, lists]
  by_cases same : other = server
  · subst same
    simp only [if_true, Function.update_self, State.WillList, sent, List.foldl_cons]
  · simp only [if_neg same, Function.update_of_ne same, State.WillList]

/-- A lost report leaves the view of its server as it is exactly when it is redundant. -/
theorem willList_lost (server : Server site) :
    (State.WillList { s with sent := Function.update s.sent server (s.sent server).tail } server ↔
    s.WillList server) ↔
      Harmless s (.lost server) := by
  simp only [State.WillList, Function.update_self, Harmless]
  cases sent : s.sent server with
  | nil => simp only [List.tail_nil, List.foldl_nil, reduceCtorEq, false_imp_iff, implies_true,
    iff_true]; rfl
  | cons report rest =>
    rw [List.tail_cons, List.foldl_cons]
    constructor
    · rintro same _ _ ⟨⟩
      exact ((foldl_apply_iff rest _ _).mp same).imp_left Iff.symm
    · intro redundant
      exact (foldl_apply_iff rest _ _).mpr ((redundant report rest rfl).imp_left Iff.symm)

/-- A turn of the timer leaves the view of every server as it is exactly when no route
expires whose server's reports say nothing about it. -/
theorem willList_router (ordered : Ordered site s.state)
    (step : (machine site).Step s (.router event) t) :
    (∀ server, t.WillList server ↔ s.WillList server) ↔ Harmless s (.router event) := by
  obtain ⟨state, unreported, moved, rfl⟩ := router_inv step
  have lists := lists_router ordered unreported moved
  have view (server : Server site) : (State.WillList { s with state } server ↔ s.WillList server) ↔
      (State.Lists { s with state } server ↔ s.Lists server) ∨ Decided (s.sent server) :=
        foldl_apply_iff ..
  simp only [view]
  cases event with
  | timer now timeout =>
    refine forall_congr' fun server => ?_
    rw [lists server, or_iff_not_imp_left]
    have kept : ((s.Lists server ∧ ∀ now' timeout', Qh3router.Event.timer now timeout =
      .timer now' timeout' →
        ¬ Expires site.destroyRoutes s.state.router now' timeout' (address server.1)) ↔
          s.Lists server) ↔
        ¬ Expires site.destroyRoutes s.state.router now timeout (address server.1) := by
      rw [and_iff_left_iff_imp]
      constructor
      · intro stays expires
        exact stays (Expires.lists expires) now timeout rfl expires
      · rintro stays _ _ _ ⟨⟩
        exact stays
    rw [kept, not_not]
  | feedback _ _ _ | wouldBlock | packet _ | request _ =>
    refine iff_of_true (fun server => .inl ?_) trivial
    rw [lists server]
    simp only [reduceCtorEq, false_imp_iff, implies_true, and_true]

theorem agrees_iff (agrees : Agrees s) (state : Qh3router.State)
    (sent : Server site → List Report) :
    Agrees { s with state, sent } ↔ ∀ server, State.WillList { s with state, sent } server ↔
      s.WillList server :=
  forall_congr' fun server => iff_congr .rfl (agrees server).symm

/-- Router and servers stay in agreement exactly when what happens is harmless. -/
theorem step_agrees (ordered : Ordered site s.state) (agrees : Agrees s)
    (step : (machine site).Step s event t) :
    Agrees t ↔ Harmless s event := by
  cases event with
  | starts server =>
    cases Except.ok.inj step.2
    refine iff_of_true (fun other => ?_) trivial
    refine (willList_report s server .start other).trans ?_
    by_cases same : other = server
    · simp only [same, if_true, Report.apply, Function.update_self]
    · simp only [if_neg same, Function.update_of_ne same]
      exact agrees other
  | hb server =>
    cases Except.ok.inj step.2
    refine iff_of_true (fun other => ?_) trivial
    refine (willList_report s server .hb other).trans ?_
    simp only [Report.apply, ite_self]
    exact agrees other
  | ends server =>
    cases Except.ok.inj step.2
    refine iff_of_true (fun other => ?_) trivial
    refine (willList_report s server .shutAck other).trans ?_
    by_cases same : other = server
    · simp only [same, if_true, Report.apply, Function.update_self, Bool.false_eq_true]
    · simp only [if_neg same, Function.update_of_ne same]
      exact agrees other
  | dies server =>
    have alive : s.running server = true := step.1
    cases Except.ok.inj step.2
    refine iff_of_false (fun agrees' => ?_) id
    have dead := (agrees' server).mp ((agrees server).mpr alive)
    dsimp only at dead
    rw [Function.update_self] at dead
    cases dead
  | delivered now server =>
    have same := willList_delivered ordered step
    obtain ⟨_, _, _, _, _, rfl⟩ := delivered_inv step
    exact iff_of_true ((agrees_iff agrees _ _).mpr same) trivial
  | lost server =>
    cases Except.ok.inj step.2
    rw [← willList_lost, agrees_iff agrees s.state]
    refine ⟨fun same => same server, fun same other => ?_⟩
    by_cases here : other = server
    · exact here ▸ same
    · simp only [State.WillList, Function.update_of_ne here]
      rfl
  | router event =>
    have same := willList_router ordered step
    obtain ⟨state, _, _, rfl⟩ := router_inv step
    rw [agrees_iff agrees state s.sent, same]

theorem init_agrees (site : Site) : Agrees (init site) := by
  intro server
  have lists : (init site).Lists server ↔ address server.1 ∈ (Qh3router.init site).announced :=
    lists_iff (init_inStep site) server
  have sent : (init site).sent server =
      if (Qh3router.init site).announced.contains (address server.1) then [.start] else [] := rfl
  have running : (init site).running server = (Qh3router.init site).announced.contains
    (address server.1) := rfl
  rw [State.WillList, lists, sent, running, ← List.contains_iff_mem]
  cases (Qh3router.init site).announced.contains (address server.1) with
  | true => simp only [if_true, List.foldl_cons, List.foldl_nil, Report.apply]
  | false => simp only [Bool.false_eq_true, if_false, List.foldl_nil]

theorem sent_step (step : (machine site).Step s event t) (server : Server site) {report : Report}
    (later : report ∈ t.sent server) :
    report ∈ s.sent server ∨ (report = .start ∧ event = .starts server) ∨ report = .hb ∨
      (report = .shutAck ∧ event = .ends server) := by
  have reported {sender : Server site} {new : Report}
    (later : report ∈ (s.report sender new).sent server) :
      report ∈ s.sent server ∨ report = new ∧ server = sender := by
    by_cases same : server = sender
    · subst same
      simpa only [State.report, Function.update_self, List.mem_append, List.mem_singleton,
        and_true] using later
    · simp only [State.report, Function.update_of_ne same] at later
      exact .inl later
  have shorter {sender : Server site} {reports : List Report} (sub : reports ⊆ s.sent sender)
      (later : report ∈ Function.update s.sent sender reports server) : report ∈ s.sent server := by
    by_cases same : server = sender
    · subst same
      rw [Function.update_self] at later
      exact sub later
    · rwa [Function.update_of_ne same] at later
  cases event with
  | starts sender =>
    cases Except.ok.inj step.2
    refine (reported later).imp_right ?_
    rintro ⟨rfl, rfl⟩
    exact .inl ⟨rfl, rfl⟩
  | hb sender =>
    cases Except.ok.inj step.2
    exact (reported later).imp_right fun new => .inr (.inl new.1)
  | ends sender =>
    cases Except.ok.inj step.2
    refine (reported later).imp_right ?_
    rintro ⟨rfl, rfl⟩
    exact .inr (.inr ⟨rfl, rfl⟩)
  | dies sender =>
    cases Except.ok.inj step.2
    exact .inl later
  | delivered now sender =>
    obtain ⟨first, rest, _, sent, _, rfl⟩ := delivered_inv step
    exact .inl (shorter (sent ▸ List.subset_cons_self first rest) later)
  | lost sender =>
    cases Except.ok.inj step.2
    exact .inl (shorter (fun _ => List.mem_of_mem_tail) later)
  | router event =>
    obtain ⟨_, _, _, rfl⟩ := router_inv step
    exact .inl later

/-- Only a start makes a server listed, and only an end or its expiry makes it unlisted. -/
theorem lists_step (ordered : Ordered site s.state) (step : (machine site).Step s event t)
    (server : Server site) :
    (t.Lists server → s.Lists server ∨ .start ∈ s.sent server) ∧
      (s.Lists server → t.Lists server ∨ .shutAck ∈ s.sent server ∨ site.destroyRoutes = true) := by
  cases event with
  | starts | hb | ends | dies | lost =>
    cases Except.ok.inj step.2
    exact ⟨.inl, .inl⟩
  | delivered now sender =>
    obtain ⟨report, rest, state, sent, moved, rfl⟩ := delivered_inv step
    have lists := lists_delivered ordered moved (Function.update s.sent sender rest) server
    rw [lists]
    by_cases same : server = sender
    · subst same
      rw [if_pos rfl, sent]
      cases report with
      | start => exact ⟨fun _ => .inr List.mem_cons_self, fun _ => .inl trivial⟩
      | hb => exact ⟨.inl, .inl⟩
      | shutAck => exact ⟨False.elim, fun _ => .inr (.inl List.mem_cons_self)⟩
    · rw [if_neg same]
      exact ⟨.inl, .inl⟩
  | router event =>
    obtain ⟨state, unreported, moved, rfl⟩ := router_inv step
    rw [lists_router ordered unreported moved server]
    refine ⟨fun listed => .inl listed.1, fun listed => ?_⟩
    by_cases destroyed : site.destroyRoutes = true
    · exact .inr (.inr destroyed)
    · exact .inl ⟨listed, fun now timeout _ expires => destroyed expires.1⟩

/-- The router's view of its servers, after all the reports on their way, is right in
every state of a run if and only if no server ends without a report, no report that
matters is lost and no route expires whose server reports no start or end. While it is
right, who is listed runs or has reported its end, and who runs is listed or has
reported its start. -/
theorem fleet_agrees_iff (run : (machine site).Run es s) :
    ((machine site).Always Agrees es ↔ (machine site).Meets Harmless es) ∧
      ((machine site).Meets Harmless es → ∀ server,
        (s.Lists server → s.running server = true ∨ .shutAck ∈ s.sent server) ∧
          (s.running server = true → s.Lists server ∨ .start ∈ s.sent server)) := by
  have always : (machine site).Always Agrees es ↔ (machine site).Meets Harmless es :=
    Transition.Machine.always_iff_meets (init_agrees site) (fun before agrees step =>
      step_agrees (run_ordered before) agrees step) run
  refine ⟨always, fun harmless server => ?_⟩
  have agrees : Agrees s := always.mpr harmless es s (List.prefix_refl es) run
  constructor
  · intro listed
    by_cases leaves : .shutAck ∈ s.sent server
    · exact .inr leaves
    · exact .inl ((agrees server).mp (foldl_apply_of_not_mem leaves listed))
  · intro running
    by_cases starts : .start ∈ s.sent server
    · exact .inr starts
    · exact .inl (of_foldl_apply starts ((agrees server).mpr running))

namespace Sample

def server : Server Sample.site := ⟨Qh3router.Sample.server 6000, by decide +kernel⟩

/-- A server starts, loses a heartbeat and ends. -/
def visit : List (Event Sample.site) :=
  [.starts server, .delivered 0 server, .router .wouldBlock, .hb server, .lost server, .ends server]

def harmless (s : State Sample.site) : Event Sample.site → Bool
  | .dies _ | .router (.timer _ _) => false
  | .lost server => (s.sent server).head? = some .hb
  | _ => true

end Sample

theorem harmless_of_test (s : State Sample.site) (event : Event Sample.site)
    (passed : Sample.harmless s event = true) :
    Harmless s event := by
  match event with
  | .dies _ | .router (.timer _ _) => cases passed
  | .lost server =>
    intro report rest sent
    have first : (s.sent server).head? = some .hb := of_decide_eq_true passed
    rw [sent, List.head?_cons] at first
    cases Option.some.inj first
    exact .inl .rfl
  | .starts _ | .hb _ | .ends _ | .delivered _ _ | .router (.feedback _ _ _)
  | .router .wouldBlock | .router (.packet _) | .router (.request _) => trivial

theorem fleet_agrees_iff_visit :
    ∃ s, (machine Sample.site).Run Sample.visit s ∧
      (machine Sample.site).Always Agrees Sample.visit ∧ s.Lists Sample.server ∧
      .shutAck ∈ s.sent Sample.server := by
  have shown : ((machine Sample.site).exec (init Sample.site) Sample.visit).map (fun s =>
    (s.state.router.entries,
      (s.state.router.heap 0).map Route.address, s.running Sample.server)) =
        some ([0], some (address Sample.server.1), false) := by decide +kernel
  have passed : (machine Sample.site).checks Sample.harmless (init Sample.site) Sample.visit =
    true := by decide +kernel
  obtain ⟨s, run, same⟩ := Transition.Machine.exec_observe shown
  obtain ⟨entries, rest⟩ := Prod.mk.inj same
  obtain ⟨there, ended⟩ := Prod.mk.inj rest
  obtain ⟨route, found, here⟩ := Option.map_eq_some_iff.mp there
  have listed : s.Lists Sample.server :=
    ⟨0, entries ▸ List.mem_singleton_self 0, route, found, here⟩
  have harmless : (machine Sample.site).Meets Harmless Sample.visit :=
    fun fs e t inside path => Transition.Machine.meets_of_checks harmless_of_test passed inside path
  have agrees := fleet_agrees_iff run
  refine ⟨s, run, agrees.1.mpr harmless, listed,
    ((agrees.2 harmless Sample.server).1 listed).resolve_left ?_⟩
  rw [ended]
  exact Bool.false_ne_true

theorem unlisted_lasts (run : (machine site).Run es s) (path : (machine site).Reaches s fs t)
    {server : Server site} (absent : ¬ s.Lists server) (unsaid : .start ∉ s.sent server)
    (never : .starts server ∉ fs) :
    ¬ t.Lists server ∧ .start ∉ t.sent server := by
  induction path with
  | refl => exact ⟨absent, unsaid⟩
  | @step fs t event u before last ih =>
    obtain ⟨earlier, here⟩ := not_or.mp (mt List.mem_append.mpr never)
    obtain ⟨absent', unsaid'⟩ := ih earlier
    have ordered := run_ordered (run.trans before)
    refine ⟨fun listed => ((lists_step ordered last server).1 listed).elim absent' unsaid',
      fun later => ?_⟩
    rcases sent_step last server later with old | ⟨_, rfl⟩ | new | ⟨new, _⟩
    · exact unsaid' old
    · exact here (List.mem_singleton_self _)
    · cases new
    · cases new

theorem listed_lasts (run : (machine site).Run es s) (path : (machine site).Reaches s fs t)
    {server : Server site} (listed : s.Lists server) (unsaid : .shutAck ∉ s.sent server)
    (never : .ends server ∉ fs) (spared : site.destroyRoutes = false) :
    t.Lists server ∧ .shutAck ∉ t.sent server := by
  induction path with
  | refl => exact ⟨listed, unsaid⟩
  | @step fs t event u before last ih =>
    obtain ⟨earlier, here⟩ := not_or.mp (mt List.mem_append.mpr never)
    obtain ⟨listed', unsaid'⟩ := ih earlier
    have ordered := run_ordered (run.trans before)
    constructor
    · rcases (lists_step ordered last server).2 listed' with stays | ended | destroyed
      · exact stays
      · exact absurd ended unsaid'
      · exact absurd destroyed (Bool.eq_false_iff.mp spared)
    · intro later
      rcases sent_step last server later with old | ⟨new, _⟩ | new | ⟨_, rfl⟩
      · exact unsaid' old
      · cases new
      · cases new
      · exact here (List.mem_singleton_self _)

/-- A fault lasts. A server that is not listed, with no start on its way, stays so
until it starts again, however often it reports. One that is listed stays so until
it reports its end, unless the router is built to destroy routes. -/
theorem faults_last (run : (machine site).Run es s) (path : (machine site).Reaches s fs t)
    (server : Server site) :
    (¬ s.Lists server → .start ∉ s.sent server → .starts server ∉ fs → ¬ t.Lists server) ∧
      (s.Lists server → .shutAck ∉ s.sent server → .ends server ∉ fs → site.destroyRoutes = false →
        t.Lists server) :=
  ⟨fun absent unsaid never => (unlisted_lasts run path absent unsaid never).1,
    fun listed unsaid never spared => (listed_lasts run path listed unsaid never spared).1⟩

namespace Sample

/-- The start is lost, and heartbeats follow. -/
def unheard : List (Event Sample.site) := [.starts server, .lost server]

/-- The server dies, and time goes by. -/
def dead : List (Event Sample.site) :=
  [.starts server, .delivered 0 server, .router .wouldBlock, .dies server]

end Sample

theorem faults_last_both :
    (∃ s t, (machine Sample.site).Run Sample.unheard s ∧
      (machine Sample.site).Reaches s [.hb Sample.server, .delivered 1 Sample.server] t ∧
      t.running Sample.server = true ∧ ¬ t.Lists Sample.server) ∧
    ∃ s t, (machine Sample.site).Run Sample.dead s ∧
      (machine Sample.site).Reaches s [.router (.timer 100 10), .router (.timer 200 10)] t ∧
      t.running Sample.server = false ∧ t.Lists Sample.server := by
  have unheard : ((machine Sample.site).exec (init Sample.site) Sample.unheard).bind (fun s =>
      ((machine Sample.site).exec s [.hb Sample.server, .delivered 1 Sample.server]).map fun t =>
        (s.state.router.entries, s.sent Sample.server, t.running Sample.server)) =
      some ([], [], true) := by decide +kernel
  have dead : ((machine Sample.site).exec (init Sample.site) Sample.dead).bind (fun s =>
      ((machine Sample.site).exec s [.router (.timer 100 10), .router (.timer 200 10)]).map fun t =>
        (s.state.router.entries, s.sent Sample.server,
          decide ((s.state.router.heap 0).map Route.address = some (address Sample.server.1)),
          t.running Sample.server)) =
            some ([0], [], true, false) := by decide +kernel
  obtain ⟨s, t, run, path, same⟩ := Transition.Machine.exec_observe_both unheard
  obtain ⟨s', t', run', path', same'⟩ := Transition.Machine.exec_observe_both dead
  simp only [Prod.mk.injEq, decide_eq_true_eq] at same same'
  obtain ⟨entries, sent, running⟩ := same
  obtain ⟨entries', sent', there, running'⟩ := same'
  obtain ⟨route, found, here⟩ := Option.map_eq_some_iff.mp there
  have absent : ¬ s.Lists Sample.server := by
    rintro ⟨ptr, inside, _⟩
    rw [entries] at inside
    cases inside
  have listed : s'.Lists Sample.server :=
    ⟨0, entries' ▸ List.mem_singleton_self 0, route, found, here⟩
  refine ⟨⟨s, t, run, path, running, (faults_last run path Sample.server).1 absent ?_ ?_⟩,
    s', t', run', path', running', (faults_last run' path' Sample.server).2 listed ?_ ?_ rfl⟩
  · rw [sent]
    exact List.not_mem_nil
  · simp only [List.mem_cons, reduceCtorEq, List.not_mem_nil, or_self, not_false_eq_true]
  · rw [sent']
    exact List.not_mem_nil
  · simp only [List.mem_cons, reduceCtorEq, List.not_mem_nil, or_self, not_false_eq_true]

end Gearsdk.Qh3router.Fleet
