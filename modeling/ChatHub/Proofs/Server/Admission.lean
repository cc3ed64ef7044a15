import ChatHub.Proofs.Server.History
import ChatHub.Proofs.Token.Signing
/-!
Who is let in.  The hub, the document about its health and the gate of the sockets each compare the
size of the set with the limit, and they always come to the same answer; in whatever way connections
have come and gone before, the numbers that the hub tells of them add up.
-/

namespace ChatHub

open Hub (Operation)

namespace Server

theorem ofBool_eq_up {b : Bool} : Health.ofBool b = .up ↔ b = true := by
  cases b <;> simp [Health.ofBool]

theorem hubHealth_eq_up (s : Server) :
    s.hubHealth = .up ↔ s.hub.registered.length < s.hub.limits.maxConnections := by
  rw [hubHealth, ofBool_eq_up, decide_eq_true_eq]

theorem connect_ok_iff (h : Hub) (user : UserId) :
    (∃ h' p, h.connect user = .ok (h', p)) ↔
      h.registered.length < h.limits.maxConnections := by
  rw [Hub.connect]
  split
  next hfull =>
    refine ⟨fun ⟨_, _, hok⟩ => ?_, fun hroom => absurd hroom (Nat.not_lt_of_le hfull)⟩
    cases hok
  next hroom => exact ⟨fun _ => Nat.lt_of_not_le hroom, fun _ => ⟨_, _, rfl⟩⟩

/-- A request for a socket that nothing but the limit and the handshake can stand against. -/
structure Eligible (s : Server) (t : Moment) (r : Http.Request) (user : UserId) : Prop where
  method : r.method = "GET"
  path : r.target.path = "/ws"
  authentic : ∃ claims, Token.authenticate s.config.secret t.now r.headers r.target = .ok claims ∧
    claims.user = user
  origin : Http.originAllowed r.headers s.config.allowedOrigin = true

/-- Who brings a token in the query that was made with the secret of the server may come in. -/
theorem eligible_of_sign {s : Server} {t : Moment} {hs : Http.Headers} {c : Claims}
    (hcookie : Token.fromCookie? hs = none) (hauthorization : Token.fromAuthorization? hs = none)
    (horigin : Http.originAllowed hs s.config.allowedOrigin = true) (huser : c.user ≠ "")
    (hexpires : c.expires < UInt64.size) (hissued : c.issued < UInt64.size)
    (hnow : t.now ≤ c.expires + Token.leeway) :
    s.Eligible t ⟨"GET", ⟨"/ws", some ("token=" ++ Token.sign s.config.secret c)⟩, hs⟩ c.user := by
  refine ⟨rfl, rfl, ⟨c, ?_, rfl⟩, horigin⟩
  have hcarries :=
    Token.carries_of_query (Token.sign s.config.secret c) "/ws" hcookie hauthorization
  rw [Token.authenticate_of_carries (Token.isPlain_sign _ _) (Token.sign_ne_empty _ _) hcarries]
  exact Token.validate_eq_ok.mpr (Token.genuine_sign huser hexpires hissued hnow)

section Upgrade

variable {s : Server} {t : Moment} {canUpgrade : Bool} {r : Http.Request}
  (hmethod : r.method = "GET") (hpath : r.target.path = "/ws")

include hmethod hpath

theorem answer_of_upgrade :
    (s.answer t canUpgrade r).2 =
      match s.grant t.now canUpgrade r with
      | .ok user => ⟨.bare 101, some user⟩
      | .error refusal => .only refusal.response := by
  have hplace : Route.ofPath? r.target.path = some .socket := by
    rw [hpath]
    decide
  simp only [answer, route, hplace, hmethod, beq_self_eq_true, if_true, answerAt, answerUpgrade]
  change (match s.grant t.now canUpgrade r with
    | .ok user => _
    | .error refusal => _ : Server × Reply).2 = _
  cases s.grant t.now canUpgrade r with
  | ok user => rfl
  | error refusal => rfl

/-- A refusal is counted under its name, if it has one, and all else is left to other counts. -/
theorem rejected_answer_of_upgrade :
    (s.answer t canUpgrade r).1.metrics.rejected =
      match s.grant t.now canUpgrade r with
      | .ok _ => s.metrics.rejected
      | .error refusal =>
          match refusal.reason? with
          | some reason => Metrics.Family.adjust (· + 1) 0 reason s.metrics.rejected
          | none => s.metrics.rejected := by
  have hplace : Route.ofPath? r.target.path = some .socket := by
    rw [hpath]
    decide
  simp only [answer, route, hplace, hmethod, beq_self_eq_true, if_true, answerAt, answerUpgrade]
  change (match s.grant t.now canUpgrade r with
    | .ok user => _
    | .error refusal => _ : Server × Reply).1.metrics.rejected = _
  cases s.grant t.now canUpgrade r with
  | ok user => rfl
  | error refusal =>
    cases hreason : refusal.reason? with
    | none => simp only [hreason]
    | some =>
      simp only [hreason]
      rfl

end Upgrade

theorem status_handshakeFault {canUpgrade : Bool} {r : Http.Request} {fault : Refusal}
    (hfault : handshakeFault? canUpgrade r = some fault) : fault.response.status ≠ 503 := by
  unfold handshakeFault? at hfault
  repeat' split at hfault
  all_goals
    cases hfault
    try decide

section Gate

variable {s : Server} {t : Moment} {r : Http.Request} {user : UserId}
  (he : s.Eligible t r user) (canUpgrade : Bool)

include he

theorem grant_of_eligible : s.grant t.now canUpgrade r =
    if s.hub.limits.maxConnections ≤ s.hub.registered.length then .error .capacity
    else
      match handshakeFault? canUpgrade r with
      | some fault => .error fault
      | none => .ok user := by
  obtain ⟨claims, hclaims, huser⟩ := he.authentic
  have horigin : ¬(!Http.originAllowed r.headers s.config.allowedOrigin) = true := by
    rw [he.origin]
    decide
  rw [← huser, grant, hclaims]
  exact if_neg horigin

theorem answer_of_eligible :
    (s.answer t canUpgrade r).2 =
      match s.grant t.now canUpgrade r with
      | .ok user => ⟨.bare 101, some user⟩
      | .error refusal => .only refusal.response :=
  answer_of_upgrade he.method he.path

/-- The gate of the sockets tells a want of room apart from whatever is wrong with a handshake. -/
theorem status_answer_of_eligible :
    (s.answer t canUpgrade r).2.response.status = 503 ↔
      s.hub.limits.maxConnections ≤ s.hub.registered.length := by
  rw [answer_of_eligible he, grant_of_eligible he]
  by_cases hfull : s.hub.limits.maxConnections ≤ s.hub.registered.length
  · simp only [if_pos hfull]
    exact ⟨fun _ => hfull, fun _ => rfl⟩
  · simp only [if_neg hfull]
    refine ⟨fun hstatus => ?_, fun hin => absurd hin hfull⟩
    cases hfault : handshakeFault? canUpgrade r with
    | none =>
      rw [hfault] at hstatus
      cases hstatus
    | some fault =>
      rw [hfault] at hstatus
      exact absurd hstatus (status_handshakeFault hfault)

/-- With room and a sound handshake the socket is opened. -/
theorem opens_of_eligible (hsound : handshakeFault? canUpgrade r = none)
    (hroom : s.hub.registered.length < s.hub.limits.maxConnections) :
    (s.answer t canUpgrade r).2 = ⟨.bare 101, some user⟩ := by
  rw [answer_of_eligible he, grant_of_eligible he, if_neg (Nat.not_le_of_lt hroom), hsound]

end Gate

/-- All that a socket asks of the hub when it is opened is a connection. -/
theorem openCalls_of_opens {s : Server} {t : Moment} {r arrived : Http.Request} {reply : Reply}
    {user : UserId} (harrived : { r with headers := r.headers.map Http.Header.trimmed } = arrived)
    (hreply : (s.answer t true arrived).2 = reply) (hopens : reply.opens = some user) :
    s.openCalls t r = [.connect user] := by
  rw [openCalls, harrived, hreply, hopens]

end Server

namespace Hub

/-- What holds of a hub after any history in which connections come by one door. -/
structure Accounted (limits : Limits) (ops : List Operation) : Prop where
  /-- Each that ever came is there, or has been evicted, or its leaver has been told. -/
  balanced :
    let h := run (new limits) ops
    h.stats.totalConnections = h.stats.currentConnections + h.stats.evictedConnections +
      dismissals (new limits) ops
  within : (run (new limits) ops).stats.currentConnections ≤ limits.maxConnections
  /-- One who is let in comes on top of all others, -/
  admitted : ∀ {user h' p}, (run (new limits) ops).connect user = .ok (h', p) →
    h'.registered = (run (new limits) ops).registered ++ [p] ∧
      h'.stats.currentConnections = (run (new limits) ops).stats.currentConnections + 1 ∧
      h'.stats.totalConnections = (run (new limits) ops).stats.totalConnections + 1
  /-- and one who is not leaves no trace. -/
  refused : ∀ {user e}, (run (new limits) ops).connect user = .error e →
    e = .connectionLimit limits.maxConnections ∧
      (run (new limits) ops).perform (.connect user) = (run (new limits) ops, .failed e)
  /-- The hub lets somebody in just when it is up, -/
  up_iff : ∀ (s : Server) (user : UserId), s.hub = run (new limits) ops →
    ((∃ h' p, (run (new limits) ops).connect user = .ok (h', p)) ↔ s.hubHealth = .up)
  /-- and just then a request for a socket is not turned away for want of room, -/
  gate_iff : ∀ (s : Server) (t : Server.Moment) (canUpgrade : Bool) (r : Http.Request)
    (user : UserId), s.hub = run (new limits) ops → s.Eligible t r user →
      (s.hubHealth = .up ↔ (s.answer t canUpgrade r).2.response.status ≠ 503)
  /-- so that it is accepted if nothing else stands against it. -/
  opens : ∀ (s : Server) (t : Server.Moment) (canUpgrade : Bool) (r : Http.Request)
    (user : UserId), s.hub = run (new limits) ops → s.Eligible t r user →
      Server.handshakeFault? canUpgrade r = none → s.hubHealth = .up →
        (s.answer t canUpgrade r).2 = ⟨.bare 101, some user⟩

theorem accounted (limits : Limits) {ops : List Operation}
    (hops : ∀ op ∈ ops, op.entersByConnect = true) : Accounted limits ops := by
  obtain ⟨hregular, hbalance⟩ := (regular_new limits).run hops
  have hlimits : (run (new limits) ops).limits = limits := (Trail.run (new limits) ops).limits_eq
  constructor
  case balanced =>
    -- a new hub has counted nobody and has nobody in its set
    have hstart : (new limits).census = 0 ∧ (new limits).counters.connections = 0 := ⟨rfl, rfl⟩
    rw [hstart.1, hstart.2, census] at hbalance
    simp only [stats]
    omega
  case within =>
    have hlength := hregular.length_le
    rwa [hlimits] at hlength
  case admitted =>
    intro user h' p hok
    have hadded := hregular.registered_of_connect hok
    have hcounters := (connected_of_connect hok).counters
    refine ⟨hadded, ?_, ?_⟩
    · simp only [stats, hadded, List.length_append, List.length_singleton]
    · simp only [stats, hcounters]
  case refused =>
    intro user e herror
    refine ⟨?_, by simp only [perform, herror]⟩
    rw [connect] at herror
    split at herror
    next => rw [← Except.error.inj herror, hlimits]
    next => cases herror
  case up_iff =>
    intro s user hhub
    rw [Server.connect_ok_iff, Server.hubHealth_eq_up, hhub]
  case gate_iff =>
    intro s t canUpgrade r user _ he
    rw [Server.hubHealth_eq_up, ne_eq, Server.status_answer_of_eligible he, Nat.not_le]
  case opens =>
    intro s t canUpgrade r user _ he hsound hup
    exact Server.opens_of_eligible he canUpgrade hsound ((Server.hubHealth_eq_up s).mp hup)

end Hub

namespace Server

/-- Whether a hub stands alone or serves a server, and however its sockets come and go: at any
moment its numbers add up, and all agree on whether there is room for one more. -/
theorem connections_accounted (config : Config) {ops : List Operation}
    {actions : List (Moment × Action)} (hops : ∀ op ∈ ops, op.entersByConnect = true)
    (hactions : ∀ a ∈ actions, a.2.entersByConnect = true) :
    Hub.Accounted config.limits ops ∧
      ((new config).run actions).hub =
        Hub.run (.new config.limits) ((new config).history actions) ∧
      ∀ past, past <+: (new config).history actions → Hub.Accounted config.limits past := by
  refine ⟨Hub.accounted _ hops, hub_run (attached_new config) actions, fun past hpast => ?_⟩
  exact Hub.accounted _ fun op hop =>
    entersByConnect_history hactions op (hpast.subset hop)

/-- Eve is turned away from a hub that is full and let in once the others are evicted; she is taken
off on request then, and it is too late to do the same to Ann.  On a server Ann opens a socket, and
hers is the one connection there is. -/
theorem eve_is_accounted :
    let config : Config :=
      { Config.default with secret := "secret", queueCapacity := 1, maxConnections := 2 }
    let ops : List Operation := [.connect "ann", .connect "bob", .connect "eve", .broadcast .pong,
      .broadcast .pong, .connect "eve", .unregister 2, .unregister 0]
    let ann : Claims := ⟨"ann", "Ann", false, 4102444800, 1700000000⟩
    let r : Http.Request := ⟨"GET", ⟨"/ws", some ("token=" ++ Token.sign "secret" ann)⟩,
      [⟨"Connection", "Upgrade"⟩, ⟨"Upgrade", "websocket"⟩, ⟨"Sec-WebSocket-Key", "key"⟩,
        ⟨"Sec-WebSocket-Version", "13"⟩]⟩
    let opening : Moment × Action := (⟨0, 0, 0⟩, .openSocket r)
    (Hub.run (.new config.limits) ops).stats.totalConnections = 0 + 2 + 1 ∧
      ((new config).run [opening]).hub.stats.totalConnections = 1 + 0 + 0 := by
  intro config ops ann r opening
  have hactions : ∀ a ∈ [opening], a.2.entersByConnect = true := by
    simp only [List.mem_singleton, forall_eq]
    rfl
  have hops : ∀ op ∈ ops, op.entersByConnect = true := by decide
  obtain ⟨halone, hhub, hserved⟩ := connections_accounted config hops hactions
  constructor
  · have hcurrent : (Hub.run (.new config.limits) ops).stats.currentConnections = 0 := by
      decide +kernel
    have hevicted : (Hub.run (.new config.limits) ops).stats.evictedConnections = 2 := by
      decide +kernel
    have hdismissed : Hub.dismissals (.new config.limits) ops = 1 := by decide +kernel
    rw [halone.balanced, hcurrent, hevicted, hdismissed]
  · let arrived : Http.Request := { r with headers := r.headers.map Http.Header.trimmed }
    have heligible : (new config).Eligible ⟨0, 0, 0⟩ arrived "ann" :=
      eligible_of_sign (by decide) (by decide) (by decide +kernel) (by decide) (by decide)
        (by decide) (Nat.zero_le _)
    have hopens : ((new config).answer ⟨0, 0, 0⟩ true arrived).2 = ⟨.bare 101, some "ann"⟩ :=
      opens_of_eligible heligible true (by decide +kernel) (by decide)
    obtain ⟨m, hm⟩ := answer_eq_with_metrics ⟨0, 0, 0⟩ true arrived (new config)
    have hasked : (new config).openCalls ⟨0, 0, 0⟩ r = [.connect "ann"] :=
      openCalls_of_opens rfl hopens rfl
    -- nothing waits for Ann yet, and her queue is open
    have hsettled : settleCalls ((new config).openSocket ⟨0, 0, 0⟩ r).1 = [] := by
      have hreply : (new config).answer ⟨0, 0, 0⟩ true arrived =
          ({ new config with metrics := m }, ⟨.bare 101, some "ann"⟩) := Prod.ext hm hopens
      rw [openSocket, hreply]
      exact (settle_of_none rfl).2
    have hcalls : (new config).history [opening] = [.connect "ann"] := by
      rw [history, history, calls, hasked, hsettled]
      rfl
    have hbalanced := (hserved _ (List.prefix_refl _)).balanced
    rw [hhub, hbalanced, hcalls]
    decide +kernel

end Server

end ChatHub
