import ChatHub.Proofs.Server.Sessions
/-!
How sessions end.  A client may hang up or send too much, or the hub may have taken its connection
down already; the two halves of a session may notice that in either order.  In every case the
connection is taken off once, what it was still in is announced once, and nothing that comes over
the socket later is heard.
-/

namespace ChatHub

open Hub (Operation)

namespace Server

/-- The sessions `xs` have sockets and connections of their own, and those that are running are
those whose connection is in the set. -/
structure OneToOne (xs : List Session) (s : Server) : Prop where
  sockets_nodup : (xs.map Session.socket).Nodup
  handles_nodup : (xs.map fun x => x.peer.handle).Nodup
  begun : s.sessions ⊆ xs
  registered_iff : ∀ x ∈ xs, x.peer ∈ s.hub.registered ↔ x ∈ s.sessions

/-- Nothing is left of a session, and nothing that comes over its socket is heard. -/
structure Forgotten (s : Server) (x : Session) : Prop where
  unregistered : x.peer ∉ s.hub.registered
  outside : ∀ channel, x.peer ∉ s.hub.rooms.members channel
  queue_closed : (s.queue x).closed = true
  unheard : ∀ t ms, s.step t (.receive x.socket ms) = (s, .noSocket, [])

/-- What an action comes to for the sessions. -/
structure Accounted (s : Server) (t : Moment) (a : Action) : Prop where
  /-- A session that begins is running. -/
  started : ∀ x, s.begins t a = some x → x ∈ (s.step t a).1.sessions
  /-- A socket that is refused leaves nothing behind. -/
  refused : ∀ r, a = .openSocket r → s.begins t a = none →
    ∃ m, (s.step t a).1 = { s with metrics := m }
  /-- What comes behind the message that ended the session, or after its queue was closed, is not
  heard. -/
  unread : ∀ x ∈ s.sessions, ∀ ms ms', a = .receive x.socket ms →
    (read x ms s).2 = true ∨ ((read x ms s).1.queue x).closed = true →
      s.step t (.receive x.socket (ms ++ ms')) = s.step t a
  /-- A client that hangs up, or sends more than it may, ends its session. -/
  hungUp : ∀ x ∈ s.sessions, ∀ ms, a = .receive x.socket ms →
    (∃ m ∈ ms, m = .close ∨ sizeLimit s.config < m.size) → x ∉ (s.step t a).1.sessions
  /-- So does whoever takes its connection off the hub. -/
  dismissed : ∀ x ∈ s.sessions, a = .hub (.unregister x.peer.handle) →
    x ∉ (s.step t a).1.sessions
  /-- All that happens to the hub is this. -/
  hub_eq : (s.step t a).1.hub = s.hub.run (s.calls t a)
  /-- The connection of a session that ends is taken off on the way, once. -/
  ended : ∀ x ∈ s.sessions, x ∉ (s.step t a).1.sessions →
    Hub.LeavesOnce x.peer s.hub (s.calls t a)
  /-- No other news of leaving is made than that of connections which have left. -/
  truthful : s.hub.SpeaksTruly (s.calls t a)

section Reading

variable {x : Session}

theorem read_over_of_mem {ms : List Message} {s : Server}
    (hm : ∃ m ∈ ms, m = .close ∨ sizeLimit s.config < m.size) : (read x ms s).2 = true := by
  -- of the messages that are read on the way none ends the session
  have hrest {m : Message} {ms : List Message} {s : Server}
      (hgoing : ¬((s.queue x).closed || decide (sizeLimit s.config < m.size)) = true)
      (hne : m ≠ .close) (hm : ∃ m' ∈ m :: ms, m' = .close ∨ sizeLimit s.config < m'.size) :
      ∃ m' ∈ ms, m' = .close ∨ sizeLimit s.config < m'.size := by
    rw [Bool.or_eq_true, decide_eq_true_eq, not_or] at hgoing
    obtain ⟨m', hin, hend⟩ := hm
    rcases List.mem_cons.mp hin with rfl | hin
    · exact (hend.elim hne hgoing.2).elim
    · exact ⟨m', hin, hend⟩
  fun_induction read x ms s with
  | case1 => simp at hm
  | case2 => rfl
  | case3 ms s text hend ih =>
    have hlater := hrest hend Message.noConfusion hm
    exact ih hlater
  | case4 => rfl
  | case5 m ms s hend htext hclose ih => exact ih (hrest hend hclose hm)

/-- Nothing is read behind the message that ends the session. -/
theorem read_append_of_over {ms : List Message} {s : Server} (hover : (read x ms s).2 = true)
    (ms' : List Message) : read x (ms ++ ms') s = read x ms s := by
  fun_induction read x ms s with
  | case1 => cases hover
  | case2 m ms s hend => simp only [List.cons_append, read, hend, if_true]
  | case3 ms s text hend ih =>
    simp only [List.cons_append, read, hend, Bool.false_eq_true, if_false]
    exact ih hover
  | case4 ms s hend => simp only [List.cons_append, read, hend, Bool.false_eq_true, if_false]
  | case5 m ms s hend htext hclose ih =>
    simp only [List.cons_append, read, hend, Bool.false_eq_true, if_false]
    exact ih hover

/-- Nor when the queue has been closed: a further message is no more than a reason to stop. -/
theorem read_append_of_closed {ms : List Message} {s : Server}
    (hclosed : ((read x ms s).1.queue x).closed = true) (ms' : List Message) :
    (read x (ms ++ ms') s).1 = (read x ms s).1 := by
  fun_induction read x ms s with
  | case1 s =>
    cases ms' with
    | nil => rfl
    | cons m ms' =>
      have hend : (s.queue x).closed = true := hclosed
      simp only [List.nil_append, read, hend, Bool.true_or, if_true]
  | case2 m ms s hend => simp only [List.cons_append, read, hend, if_true]
  | case3 ms s text hend ih =>
    simp only [List.cons_append, read, hend, Bool.false_eq_true, if_false]
    exact ih hclosed
  | case4 ms s hend => simp only [List.cons_append, read, hend, Bool.false_eq_true, if_false]
  | case5 m ms s hend htext hclose ih =>
    simp only [List.cons_append, read, hend, Bool.false_eq_true, if_false]
    exact ih hclosed

end Reading

section Action

variable {xs : List Session} {s : Server} (ho : Orderly xs s)

include ho

theorem Orderly.session?_eq_some {socket : Nat} {x : Session} :
    s.session? socket = some x ↔ x ∈ s.sessions ∧ x.socket = socket := by
  rw [session?]
  constructor
  · intro hfound
    have hsocket := List.find?_some hfound
    rw [beq_iff_eq] at hsocket
    exact ⟨List.mem_of_find?_eq_some hfound, hsocket⟩
  · rintro ⟨hx, rfl⟩
    cases hfound : s.sessions.find? fun y => y.socket == x.socket with
    | none => exact absurd (beq_self_eq_true x.socket) (List.find?_eq_none.mp hfound x hx)
    | some y =>
      have hy : y ∈ s.sessions := List.mem_of_find?_eq_some hfound
      have hsocket := List.find?_some hfound
      rw [beq_iff_eq] at hsocket
      exact congrArg some (List.inj_on_of_nodup_map ho.sockets_nodup (ho.running.subset hy)
        (ho.running.subset hx) hsocket)

theorem Orderly.not_mem_settle {x : Session} (hgone : x ∉ s.sessions ∨ (s.queue x).closed = true) :
    x ∉ (Server.settle s).1.sessions := by
  obtain ⟨hhub, hsub⟩ := hub_settle ho.attached
  intro hstill
  rcases hgone with hout | hclosed
  · exact hout (hsub hstill)
  · obtain ⟨c, hc, _⟩ := Option.map_eq_some_iff.mp (ho.attached x (hsub hstill))
    obtain ⟨c', hc', hage⟩ := (Hub.Trail.run s.hub (settleCalls s)).ages hc
    have hopen := ho.settle.2.opened x hstill
    rw [queue, Hub.connection, hc] at hclosed
    rw [queue, hhub, Hub.connection, hc'] at hopen
    exact Bool.false_ne_true (hopen.symm.trans (hage.closed hclosed))

omit ho in
theorem spares_calls (t : Moment) {a : Action} (ha : ∀ op, a = .hub op → Spares xs op) :
    ∀ op ∈ s.calls t a, Spares xs op := by
  intro op hop
  cases a with
  | hub o =>
    rcases List.mem_cons.mp hop with rfl | hin
    · exact ha op rfl
    · exact spares_of_entersByConnect (entersByConnect_settleCalls _ op hin) xs
  | _ => exact spares_of_entersByConnect (entersByConnect_calls t (by rfl) s op hop) xs

theorem Orderly.session?_eq_none {x : Session} (hx : x ∈ xs) (hout : x ∉ s.sessions) :
    s.session? x.socket = none := by
  rw [Option.eq_none_iff_forall_ne_some]
  intro y hfound
  obtain ⟨hy, hsocket⟩ := ho.session?_eq_some.mp hfound
  have heq : y = x := List.inj_on_of_nodup_map ho.sockets_nodup (ho.running.subset hy) hx hsocket
  exact hout (heq ▸ hy)

/-- What comes too late makes no difference. -/
theorem Orderly.receive_append {x : Session} (hx : x ∈ s.sessions) {ms : List Message}
    (hend : (Server.read x ms s).2 = true ∨ ((Server.read x ms s).1.queue x).closed = true)
    (ms' : List Message) : s.receive x (ms ++ ms') = s.receive x ms := by
  rcases hend with hover | hclosed
  · simp only [Server.receive, read_append_of_over hover]
  · have hout : x ∉ (Server.settle (Server.read x ms s).1).1.sessions :=
      (ho.read hx ms).not_mem_settle (Or.inr hclosed)
    have hgone : ((Server.settle (Server.read x ms s).1).1.sessions.contains x) = false := by
      simpa using hout
    simp only [Server.receive, read_append_of_closed hclosed, hgone, Bool.and_false]

/-- A session that is over is ended, unless that has happened on the way. -/
theorem Orderly.not_mem_receive {x : Session} (hx : x ∈ s.sessions) {ms : List Message}
    (hover : (Server.read x ms s).2 = true) : x ∉ (s.receive x ms).1.sessions := by
  have hread := ho.read hx ms
  simp only [Server.receive, hover, Bool.true_and]
  split
  next hin =>
    have hmem : x ∈ (Server.settle (Server.read x ms s).1).1.sessions := by simpa using hin
    apply (hread.settle.1.endSession hmem).not_mem_settle
    exact Or.inl (hread.settle.1.sessions_nodup.not_mem_erase)
  next hout => simpa using hout

theorem Orderly.not_mem_step_unregister (t : Moment) {x : Session} (hx : x ∈ s.sessions) :
    x ∉ (s.step t (.hub (.unregister x.peer.handle))).1.sessions := by
  intro hstill
  have hspares : ∀ op, Action.hub (.unregister x.peer.handle) = .hub op → Spares xs op := by
    rintro op ⟨⟩ y -
    nofun
  obtain ⟨ho', hr'⟩ := ho.step t hspares
  have hknows : s.hub.Knows x.peer := ho.attached x hx
  have hoff : x.peer ∉ (s.step t (.hub (.unregister x.peer.handle))).1.hub.registered := by
    rw [(hub_step ho.attached t _).1]
    refine (ho.tidy.perform _).tidy.not_mem_registered_run
      ((Hub.Trail.perform s.hub _).peer?_of_some hknows) ?_ fun hregister => ?_
    · rw [Hub.perform_unregister hknows]
      exact (Hub.unregister_ends hknows).1
    · cases entersByConnect_settleCalls _ _ hregister
  rcases ho'.held x hstill with hin | hclosed
  · exact hoff hin
  · exact Bool.false_ne_true ((hr'.opened x hstill).symm.trans hclosed)

variable (hr : s.AtRest)

include hr

theorem Orderly.forgotten {x : Session} (hx : x ∈ xs) (hout : x ∉ s.sessions) :
    Forgotten s x := by
  obtain ⟨hoff, hbarred⟩ := ho.ended x hx hout
  refine ⟨hoff, hbarred.not_mem_members, ?_, fun t ms => ?_⟩
  · obtain ⟨c, hc, hclosed⟩ := hbarred.closed
    rw [queue, Hub.connection, hc]
    exact hclosed
  · simp only [Server.step, rest, ho.session?_eq_none hx hout, hr.settle_eq]

theorem Orderly.oneToOne : OneToOne xs s where
  sockets_nodup := ho.sockets_nodup
  handles_nodup := ho.handles_nodup
  begun := ho.running.subset
  registered_iff := by
    intro x hx
    constructor
    · intro hin
      by_contra hout
      exact (ho.ended x hx hout).1 hin
    · intro hrunning
      refine (ho.held x hrunning).resolve_right fun hclosed => ?_
      exact Bool.false_ne_true ((hr.opened x hrunning).symm.trans hclosed)

theorem Orderly.accounted (t : Moment) {a : Action} (ha : ∀ op, a = .hub op → Spares xs op) :
    Accounted s t a := by
  obtain ⟨ho', hr'⟩ := ho.step t ha
  have hhub := (hub_step ho.attached t a).1
  constructor
  case started => exact fun x hbegins => hr.mem_sessions_of_begins ho.attached hbegins
  case refused =>
    rintro r rfl hnone
    obtain ⟨m, answer, heq⟩ := openSocket_of_begins_eq_none hnone
    have hquiet : ({ s with metrics := m } : Server).AtRest := ⟨hr.drained, hr.opened⟩
    refine ⟨m, ?_⟩
    simp only [Server.step, rest, heq, hquiet.settle_eq]
  case unread =>
    rintro x hx ms ms' rfl hend
    simp only [Server.step, ho.session?_eq_some.mpr ⟨hx, rfl⟩, ho.receive_append hx hend]
  case hungUp =>
    rintro x hx ms rfl hend
    simp only [Server.step, ho.session?_eq_some.mpr ⟨hx, rfl⟩]
    exact ho.not_mem_receive hx (read_over_of_mem hend)
  case dismissed =>
    rintro x hx rfl
    exact ho.not_mem_step_unregister t hx
  case hub_eq => exact hhub
  case ended =>
    intro x hx hout
    have hin : x ∈ xs := ho.running.subset hx
    have hknows := ho.known x hin
    apply Hub.leavesOnce ho.tidy hknows
    · intro ops
      exact (ho.namesTell.run ops).ownName (hknows.run ops) (ho.named x hin)
    · exact fun hregister => spares_calls t ha _ hregister x hin rfl
    · exact ((ho.oneToOne hr).registered_iff x hin).mpr hx
    · rw [← hhub]
      exact (ho'.ended x (List.mem_append_left _ hin) hout).1
  case truthful => exact Hub.speaksTruly ho.tidy _

end Action

theorem run_singleton (s : Server) (t : Moment) (a : Action) :
    s.run [(t, a)] = (s.step t a).1 := rfl

theorem run_cons (s : Server) (first : Moment × Action) (actions : List (Moment × Action)) :
    s.run (first :: actions) = (s.run [first]).run actions := rfl

/-- A whole history, of which each action does what a single one does. -/
theorem Orderly.run_actions {xs : List Session} {s : Server} (ho : Orderly xs s) (hr : s.AtRest)
    {actions : List (Moment × Action)}
    (hactions : ∀ before t op after, actions = before ++ (t, .hub op) :: after →
      Spares (xs ++ s.begun before) op) :
    Orderly (xs ++ s.begun actions) (s.run actions) ∧ (s.run actions).AtRest := by
  induction actions generalizing xs s with
  | nil =>
    rw [begun, List.append_nil]
    exact ⟨ho, hr⟩
  | cons first actions ih =>
    obtain ⟨t, a⟩ := first
    have hfirst : ∀ op, a = .hub op → Spares xs op := by
      rintro op rfl
      have hspares := hactions [] t op actions rfl
      rwa [begun, List.append_nil] at hspares
    obtain ⟨ho', hr'⟩ := ho.step t hfirst
    rw [begun, ← List.append_assoc, run_cons, run_singleton]
    apply ih ho' hr'
    rintro before t' op after rfl
    have hspares := hactions ((t, a) :: before) t' op after rfl
    rwa [begun, ← List.append_assoc] at hspares

/-- No session outlives its socket, and none leaks.  Whatever the server is asked, as long as nobody
registers the connections of its sockets by another way: the connections that sockets have brought
into the set are those of the sessions that are running, one for each; what has ended is nowhere any
more; and of whatever comes next this remains true, as it is set out for a single action. -/
theorem no_session_outlives_its_socket (config : Config) {actions : List (Moment × Action)}
    (hactions : ∀ before t op after, actions = before ++ (t, .hub op) :: after →
      Spares ((new config).begun before) op) :
    let s := (new config).run actions
    let xs := (new config).begun actions
    s.AtRest ∧ OneToOne xs s ∧ (∀ x ∈ xs, x ∉ s.sessions → Forgotten s x) ∧
      ∀ t a, (∀ op, a = .hub op → Spares xs op) → Accounted s t a := by
  intro s xs
  have hnew : Orderly [] (new config) := by
    refine ⟨Hub.tidy_new _, Hub.namesTell_new _, ?_, ?_, .nil, .nil, ?_, .refl _, ?_, ?_⟩
    all_goals simp [new]
  obtain ⟨ho, hr⟩ := hnew.run_actions (atRest_new config) hactions
  exact ⟨hr, ho.oneToOne hr, fun x hx hout => ho.forgotten hr hx hout,
    fun t a ha => ho.accounted hr t ha⟩

/-- Ann opens a socket, and then her connection is taken off the hub. -/
theorem ann_leaves_nothing_behind :
    let ann : Claims := ⟨"ann", "Ann", false, 4102444800, 1700000000⟩
    let r : Http.Request := ⟨"GET", ⟨"/ws", some ("token=" ++ Token.sign "secret" ann)⟩,
      [⟨"Connection", "Upgrade"⟩, ⟨"Upgrade", "websocket"⟩, ⟨"Sec-WebSocket-Key", "key"⟩,
        ⟨"Sec-WebSocket-Version", "13"⟩]⟩
    let t : Moment := ⟨0, 0, 0⟩
    let config : Config := { Config.default with secret := "secret" }
    let opening : Moment × Action := (t, .openSocket r)
    let dismissal : Moment × Action := (t, .hub (.unregister 0))
    ∃ x, (new config).begun [opening, dismissal] = [x] ∧
      x ∈ ((new config).run [opening]).sessions ∧
      Forgotten ((new config).run [opening, dismissal]) x := by
  intro ann r t config opening dismissal
  let arrived : Http.Request := { r with headers := r.headers.map Http.Header.trimmed }
  have heligible : (new config).Eligible t arrived "ann" :=
    eligible_of_sign (by decide) (by decide) (by decide +kernel) (by decide) (by decide) (by decide)
      (Nat.zero_le _)
  let x : Session := ⟨0, 0, .fresh 0, "ann"⟩
  have hbegins : (new config).begins t (.openSocket r) = some x :=
    begins_of_eligible rfl heligible (by decide +kernel) (by decide)
  have hbegun : (new config).begun [opening, dismissal] = [x] := by
    simp only [begun, opening, dismissal, hbegins]
    rfl
  -- nothing that is asked of the hub here registers anybody
  have hspared {actions : List (Moment × Action)} (hpast : actions <+: [opening, dismissal]) :
      ∀ before t op after, actions = before ++ (t, .hub op) :: after →
        Spares ((new config).begun before) op := by
    rintro before t' op after rfl y -
    have hin : (t', .hub op) ∈ [opening, dismissal] :=
      hpast.subset (List.mem_append_right _ List.mem_cons_self)
    simp only [opening, dismissal, List.mem_cons, Prod.mk.injEq, reduceCtorEq, Action.hub.injEq,
      and_false, List.not_mem_nil, or_false, false_or] at hin
    rw [hin.2]
    nofun
  obtain ⟨-, -, -, hsecond⟩ :=
    no_session_outlives_its_socket config (hspared (List.prefix_append [opening] [dismissal]))
  obtain ⟨-, -, hended, -⟩ :=
    no_session_outlives_its_socket config (hspared (List.prefix_refl [opening, dismissal]))
  have hrunning : x ∈ ((new config).run [opening]).sessions := by
    rw [run_singleton]
    exact (atRest_new config).mem_sessions_of_begins (attached_new config) hbegins
  have hspares : ∀ op, Action.hub (.unregister 0) = .hub op →
      Spares ((new config).begun [opening]) op := by
    rintro op ⟨⟩ y -
    nofun
  have hover : x ∉ ((new config).run [opening, dismissal]).sessions := by
    rw [run_cons, run_singleton]
    exact (hsecond t (.hub (.unregister 0)) hspares).dismissed x hrunning rfl
  have hlisted : x ∈ (new config).begun [opening, dismissal] := hbegun ▸ List.mem_singleton_self x
  exact ⟨x, hbegun, hrunning, hended x hlisted hover⟩

end Server

end ChatHub
