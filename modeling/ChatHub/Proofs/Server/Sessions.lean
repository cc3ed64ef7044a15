import ChatHub.Proofs.Hub.Parting
import ChatHub.Proofs.Server.Admission
/-!
The sessions of a server and their connections.  Whatever happens, a session and its connection go
together: when everything has come to rest the connections that sockets have brought into the set
are those of the sessions that are still running.
-/

namespace ChatHub

open Hub (Operation)

namespace Server

/-- The session that an action begins, if it is a request for a socket that is accepted and the hub
takes a further connection. -/
def begins (t : Moment) (a : Action) (s : Server) : Option Session :=
  match a with
  | .openSocket r =>
      match (s.answer t true { r with headers := r.headers.map Http.Header.trimmed }).2.opens with
      | some user =>
          match s.hub.connect user with
          | .ok (_, p) => some ⟨s.opened, p⟩
          | .error _ => none
      | none => none
  | _ => none

/-- All sessions that are begun in a history of the server. -/
def begun : Server → List (Moment × Action) → List Session
  | _, [] => []
  | s, (t, a) :: actions => (s.begins t a).toList ++ (s.step t a).1.begun actions

/-- Nothing waits to be sent, and no session has still to be ended. -/
structure AtRest (s : Server) : Prop where
  drained : ∀ x ∈ s.sessions, (s.queue x).waiting = []
  opened : ∀ x ∈ s.sessions, (s.queue x).closed = false

/-- What holds at any time between the beginnings of sessions, of which `xs` is the list so far.
The connection of a session that is running is in the set, unless its queue has been closed; that of
one that has ended is nowhere, for good. -/
structure Orderly (xs : List Session) (s : Server) : Prop where
  tidy : s.hub.Tidy
  namesTell : s.hub.NamesTell
  known : ∀ x ∈ xs, s.hub.Knows x.peer
  named : ∀ x ∈ xs, x.peer.id = .fresh x.peer.handle
  handles_nodup : (xs.map fun x => x.peer.handle).Nodup
  sockets_nodup : (xs.map Session.socket).Nodup
  numbered : ∀ x ∈ xs, x.socket < s.opened
  running : s.sessions.Sublist xs
  held : ∀ x ∈ s.sessions, x.peer ∈ s.hub.registered ∨ (s.queue x).closed = true
  ended : ∀ x ∈ xs, x ∉ s.sessions → x.peer ∉ s.hub.registered ∧ s.hub.Barred x.peer

/-- The operation does not put the connection of a socket into the set by another way.  Only who
holds a connection can do that, and a session gives its own to nobody. -/
def Spares (xs : List Session) (op : Operation) : Prop :=
  ∀ x ∈ xs, op ≠ .register x.peer.handle

theorem spares_of_entersByConnect {op : Operation} (h : op.entersByConnect = true)
    (xs : List Session) : Spares xs op := by
  rintro x _ rfl
  cases h

namespace Orderly

variable {xs : List Session} {s s' : Server} (ho : Orderly xs s)

include ho

theorem attached : s.Attached := fun x hx => ho.known x (ho.running.subset hx)

/-- Settings, readiness and what has been measured make no difference. -/
theorem of_eq (hhub : s'.hub = s.hub) (hsessions : s'.sessions = s.sessions)
    (hopened : s'.opened = s.opened) : Orderly xs s' := by
  obtain ⟨_, hub, _, _, sessions, opened⟩ := s'
  subst hhub hsessions hopened
  exact ⟨ho.tidy, ho.namesTell, ho.known, ho.named, ho.handles_nodup, ho.sockets_nodup,
    ho.numbered, ho.running, ho.held, ho.ended⟩

/-- An operation of the hub, whatever has become of the sessions that have ended. -/
theorem keep (op : Operation) (hhub : s'.hub = (s.hub.perform op).1)
    (hsessions : s'.sessions = s.sessions) (hopened : s'.opened = s.opened)
    (hended : ∀ x ∈ xs, x ∉ s'.sessions → x.peer ∉ s'.hub.registered ∧ s'.hub.Barred x.peer) :
    Orderly xs s' where
  tidy := hhub ▸ (ho.tidy.perform op).tidy
  namesTell := by
    rw [hhub]
    exact ho.namesTell.run [op]
  known := fun x hx => hhub ▸ (ho.known x hx).run [op]
  named := ho.named
  handles_nodup := ho.handles_nodup
  sockets_nodup := ho.sockets_nodup
  numbered := hopened ▸ ho.numbered
  running := hsessions ▸ ho.running
  held := by
    intro x hx
    have hin : x ∈ xs := ho.running.subset (hsessions ▸ hx)
    have hown : (s.hub.perform op).1.OwnName x.peer :=
      (ho.namesTell.run [op]).ownName ((ho.known x hin).run [op]) (ho.named x hin)
    have hheard := ho.tidy.heard_perform (ho.known x hin) op hown "" ""
    obtain ⟨c, hc, _⟩ := Option.map_eq_some_iff.mp (ho.known x hin)
    obtain ⟨c', hc', hage⟩ := (Hub.Trail.perform s.hub op).ages hc
    have hclosing (hclosed : (s.queue x).closed = true) : (s'.queue x).closed = true := by
      rw [queue, Hub.connection, hc] at hclosed
      rw [queue, hhub, Hub.connection, hc']
      exact hage.closed hclosed
    rcases ho.held x (hsessions ▸ hx) with hregistered | hclosed
    · rw [queue, hhub]
      exact (hheard.stays hregistered).imp_right Hub.TakenDown.queue_closed
    · exact Or.inr (hclosing hclosed)
  ended := hended

/-- An operation of the hub, by whoever it is asked. -/
theorem perform {op : Operation} (hop : Spares xs op)
    (hhub : s'.hub = (s.hub.perform op).1) (hsessions : s'.sessions = s.sessions)
    (hopened : s'.opened = s.opened) : Orderly xs s' := by
  apply ho.keep op hhub hsessions hopened
  intro x hx hout
  obtain ⟨hoff, hbarred⟩ := ho.ended x hx (hsessions ▸ hout)
  rw [hhub]
  refine ⟨?_, (Hub.Trail.perform s.hub op).barred hbarred⟩
  have hnone : .register x.peer.handle ∉ [op] :=
    fun hin => hop x hx (List.mem_singleton.mp hin).symm
  exact ho.tidy.not_mem_registered_run (ho.known x hx) hoff hnone

theorem run {ops : List Operation} (hops : ∀ op ∈ ops, Spares xs op)
    (hhub : s'.hub = s.hub.run ops) (hsessions : s'.sessions = s.sessions)
    (hopened : s'.opened = s.opened) : Orderly xs s' := by
  induction ops generalizing s with
  | nil => exact ho.of_eq hhub hsessions hopened
  | cons op ops ih =>
    have hfirst : Orderly xs { s with hub := (s.hub.perform op).1 } :=
      ho.perform (hops op List.mem_cons_self) rfl rfl rfl
    exact ih hfirst (fun o hin => hops o (List.mem_cons_of_mem op hin)) hhub hsessions hopened

theorem sessions_nodup : s.sessions.Nodup :=
  (ho.sockets_nodup.of_map Session.socket).sublist ho.running

/-- Whatever the end of a session, its connection is nowhere after it. -/
theorem endSession {x : Session} (hx : x ∈ s.sessions) : Orderly xs (s.endSession x) := by
  have hin : x ∈ xs := ho.running.subset hx
  have hknows : s.hub.Knows x.peer := ho.known x hin
  have hhub := hub_endSession (s := s) hknows
  have hkept : Orderly xs { s with hub := (s.endSession x).hub } := by
    refine ho.run ?_ hhub rfl rfl
    exact fun op hop => spares_of_entersByConnect (entersByConnect_endCalls op hop) xs
  have hout : x.peer ∉ (s.endSession x).hub.registered := (Hub.unregister_ends hknows).1
  have hbarred : (s.endSession x).hub.Barred x.peer :=
    ((Hub.Trail.takeLeave Hub.Trail.deliver x.peer s.hub).trans
      (.touch x.peer .abandon _)).barred (Hub.barred_detach hknows)
  refine ⟨hkept.tidy, hkept.namesTell, hkept.known, ho.named, ho.handles_nodup, ho.sockets_nodup,
    ho.numbered, List.erase_sublist.trans ho.running, ?_, ?_⟩
  · exact fun y hy => hkept.held y (List.mem_of_mem_erase hy)
  · intro y hy hgone
    by_cases heq : y = x
    · subst heq
      exact ⟨hout, hbarred⟩
    · exact hkept.ended y hy fun hstill => hgone ((List.mem_erase_of_ne heq).mpr hstill)

theorem flush : Orderly xs (flush s).1 := by
  refine ho.run ?_ (hub_flush ho.attached) rfl rfl
  exact fun op hop => spares_of_entersByConnect (entersByConnect_flushCalls op hop) xs

end Orderly

section Rest

variable {s : Server}

theorem atRest_new (config : Config) : (new config).AtRest := ⟨nofun, nofun⟩

theorem waiting_foldl_empty {xs : List Session} {h : Hub} (hxs : ∀ x ∈ xs, h.Knows x.peer)
    {x : Session} (hx : x ∈ xs) :
    ((xs.foldl (fun h x => h.update x.peer Connection.empty) h).connection x.peer).queue.waiting =
      [] := by
  have hstays (ys : List Session) {g : Hub} (hg : (g.connection x.peer).queue.waiting = []) :
      ((ys.foldl (fun h x => h.update x.peer Connection.empty) g).connection
        x.peer).queue.waiting = [] := by
    induction ys generalizing g with
    | nil => exact hg
    | cons y ys ih =>
      apply ih
      have hle := Hub.waiting_length_update_empty_le (h := g) (p := y.peer) x.peer
      rw [hg] at hle
      exact List.eq_nil_of_length_eq_zero (Nat.le_zero.mp hle)
  induction xs generalizing h with
  | nil => cases hx
  | cons y ys ih =>
    rcases List.mem_cons.mp hx with rfl | hin
    · refine hstays ys (g := h.update x.peer Connection.empty) ?_
      rw [Hub.connection_update_self _ _ h (hxs x List.mem_cons_self)]
      rfl
    · exact ih (fun z hz => (hxs z (List.mem_cons_of_mem y hz)).update fun _ => rfl) hin

theorem waiting_flush (ha : s.Attached) {x : Session} (hx : x ∈ s.sessions) :
    ((flush s).1.queue x).waiting = [] :=
  waiting_foldl_empty ha hx

/-- Coming to rest keeps order, whatever sessions it ends. -/
theorem Orderly.settle {xs : List Session} (ho : Orderly xs s) :
    Orderly xs (settle s).1 ∧ (settle s).1.AtRest := by
  induction s using settle.induct with
  | case1 s flushed hnone =>
    rw [(settle_of_none hnone).1]
    refine ⟨ho.flush, fun x hx => waiting_flush ho.attached hx, fun x hx => ?_⟩
    exact Bool.eq_false_iff.mpr (List.find?_eq_none.mp hnone x hx)
  | case2 s flushed x hsome _ _ _ ih =>
    rw [(settle_of_some hsome).1]
    exact ih (ho.flush.endSession (List.mem_of_find?_eq_some hsome))

/-- Where nothing waits nothing is sent. -/
theorem flush_of_drained (hdrained : ∀ x ∈ s.sessions, (s.queue x).waiting = []) :
    flush s = (s, []) := by
  have hhub : s.sessions.foldl (fun h x => h.update x.peer Connection.empty) s.hub = s.hub := by
    have hfold (ys : List Session) (hys : ∀ x ∈ ys, (s.queue x).waiting = []) :
        ys.foldl (fun h x => h.update x.peer Connection.empty) s.hub = s.hub := by
      induction ys with
      | nil => rfl
      | cons y ys ih =>
        have hsame : Connection.empty (s.hub.connection y.peer) = s.hub.connection y.peer := by
          have hnone : (s.hub.connection y.peer).queue.waiting = [] := hys y List.mem_cons_self
          rw [Connection.empty, ← hnone]
        rw [List.foldl_cons, Hub.update_eq_self hsame]
        exact ih fun x hx => hys x (List.mem_cons_of_mem y hx)
    exact hfold s.sessions hdrained
  have hsent : (s.sessions.flatMap fun x =>
      (s.queue x).waiting.map fun f => (⟨x.socket, .frame f⟩ : Emission)) = [] := by
    rw [List.flatMap_eq_nil_iff]
    intro x hx
    rw [hdrained x hx, List.map_nil]
  exact Prod.ext (congrArg (fun hub => { s with hub }) hhub) hsent

/-- Where everything is at rest already nothing happens. -/
theorem AtRest.settle_eq (hr : s.AtRest) : settle s = (s, []) := by
  have hflush := flush_of_drained hr.drained
  have hnone : ((flush s).1.sessions.find? fun x => ((flush s).1.queue x).closed) = none := by
    rw [hflush, List.find?_eq_none]
    exact fun x hx => Bool.eq_false_iff.mp (hr.opened x hx)
  rw [(settle_of_none hnone).1, hflush]

end Rest

section Open

variable {s : Server} {t : Moment} {r : Http.Request}

/-- The reply to a request for a socket, which is read twice. -/
theorem exists_reply (t : Moment) (r : Http.Request) (s : Server) :
    ∃ m reply, s.answer t true { r with headers := r.headers.map Http.Header.trimmed } =
      ({ s with metrics := m }, reply) := by
  obtain ⟨m, hm⟩ :=
    answer_eq_with_metrics t true { r with headers := r.headers.map Http.Header.trimmed } s
  exact ⟨m, _, Prod.ext hm rfl⟩

/-- A socket that is refused, by the gate or by the hub. -/
theorem openSocket_of_begins_eq_none (hnone : s.begins t (.openSocket r) = none) :
    ∃ m a, s.openSocket t r = ({ s with metrics := m }, a) := by
  obtain ⟨m, reply, hreply⟩ := exists_reply t r s
  simp only [begins, hreply] at hnone
  simp only [openSocket, hreply]
  cases hopens : reply.opens with
  | none => exact ⟨m, _, rfl⟩
  | some user =>
    cases hconnect : s.hub.connect user with
    | error e =>
      simp only [startSession, hconnect]
      exact ⟨m, _, rfl⟩
    | ok accepted =>
      simp only [hopens, hconnect] at hnone
      cases hnone

/-- Who may come in gets a session, if there is room for it. -/
theorem begins_of_eligible {user : UserId} {arrived : Http.Request}
    (harrived : { r with headers := r.headers.map Http.Header.trimmed } = arrived)
    (he : s.Eligible t arrived user) (hsound : handshakeFault? true arrived = none)
    (hroom : s.hub.registered.length < s.hub.limits.maxConnections) :
    s.begins t (.openSocket r) =
      some ⟨s.opened, s.hub.table.length, .fresh s.hub.table.length, user⟩ := by
  obtain ⟨hub, p, hok⟩ := (connect_ok_iff s.hub user).mpr hroom
  have hopens := opens_of_eligible he true hsound hroom
  simp only [begins, harrived, hopens, hok, (Hub.connected_of_connect hok).peer_eq]

/-- Nothing else begins a session. -/
theorem exists_openSocket_of_begins {a : Action} {x : Session} (hsome : s.begins t a = some x) :
    ∃ r, a = .openSocket r := by
  cases a with
  | openSocket r => exact ⟨r, rfl⟩
  | _ => cases hsome

theorem openSocket_of_begins_eq_some {x : Session}
    (hsome : s.begins t (.openSocket r) = some x) :
    ∃ user hub m a, s.hub.connect user = .ok (hub, x.peer) ∧ x.socket = s.opened ∧
      s.openSocket t r =
        ({ s with
           hub, metrics := m, opened := s.opened + 1, sessions := s.sessions ++ [x] }, a) := by
  obtain ⟨m, reply, hreply⟩ := exists_reply t r s
  simp only [begins, hreply] at hsome
  simp only [openSocket, hreply]
  cases hopens : reply.opens with
  | none =>
    rw [hopens] at hsome
    cases hsome
  | some user =>
    cases hconnect : s.hub.connect user with
    | error e =>
      simp only [hopens, hconnect] at hsome
      cases hsome
    | ok accepted =>
      simp only [hopens, hconnect] at hsome
      cases hsome
      simp only [startSession, hconnect]
      exact ⟨user, accepted.1, m.recordSession, _, hconnect, trivial, rfl⟩

/-- A new session starts with an empty queue and does not disturb the others. -/
theorem AtRest.open (hr : s.AtRest) (ha : s.Attached) {user : UserId} {hub : Hub} {x : Session}
    (hok : s.hub.connect user = .ok (hub, x.peer)) (m : Metrics.Registry) (n : Nat) :
    ({ s with hub, metrics := m, opened := n, sessions := s.sessions ++ [x] } : Server).AtRest := by
  have hn := Hub.connected_of_connect hok
  have hqueue {y : Session} (hy : y ∈ s.sessions ++ [x]) :
      (hub.connection y.peer).queue.waiting = [] ∧
        (hub.connection y.peer).queue.closed = false := by
    rcases List.mem_append.mp hy with hin | hlast
    · rw [hn.connection_eq (ha y hin)]
      exact ⟨hr.drained y hin, hr.opened y hin⟩
    · rw [List.mem_singleton.mp hlast, hn.newest]
      exact ⟨rfl, rfl⟩
  exact ⟨fun y hy => (hqueue hy).1, fun y hy => (hqueue hy).2⟩

/-- So it is running after everything has come to rest. -/
theorem AtRest.mem_sessions_of_begins (hr : s.AtRest) (ha : s.Attached) {a : Action} {x : Session}
    (hbegins : s.begins t a = some x) : x ∈ (s.step t a).1.sessions := by
  obtain ⟨r, rfl⟩ := exists_openSocket_of_begins hbegins
  obtain ⟨user, hub, m, answer, hok, -, heq⟩ := openSocket_of_begins_eq_some hbegins
  simp only [Server.step, rest, heq, (hr.open ha hok m _).settle_eq]
  exact List.mem_append_right _ (List.mem_singleton_self x)

/-- The connection of a new session is one that has not been there before. -/
theorem Orderly.open {xs : List Session} (ho : Orderly xs s) {user : UserId} {hub : Hub}
    {x : Session} (hok : s.hub.connect user = .ok (hub, x.peer)) (hsocket : x.socket = s.opened)
    (m : Metrics.Registry) :
    Orderly (xs ++ [x]) { s with
      hub, metrics := m, opened := s.opened + 1, sessions := s.sessions ++ [x] } := by
  have hn := Hub.connected_of_connect hok
  have hafter : (s.hub.perform (.connect user)).1 = hub := by simp only [Hub.perform, hok]
  have hspares : Spares xs (.connect user) := fun _ _ => nofun
  have hkept : Orderly xs { s with hub } := ho.perform hspares hafter.symm rfl rfl
  have hnew {y : Session} (hy : y ∈ xs) : y.peer.handle ≠ x.peer.handle :=
    hn.handle_ne (ho.known y hy)
  have hsplit {P : Session → Prop} (hold : ∀ y ∈ xs, P y) (hlast : P x) : ∀ y ∈ xs ++ [x], P y := by
    intro y hy
    rcases List.mem_append.mp hy with hin | heq
    · exact hold y hin
    · exact List.mem_singleton.mp heq ▸ hlast
  constructor
  case tidy => exact hkept.tidy
  case namesTell => exact hkept.namesTell
  case known => exact hsplit hkept.known hn.knows
  case named => exact hsplit hkept.named hn.id_eq
  case handles_nodup =>
    rw [List.map_append, List.nodup_append]
    refine ⟨ho.handles_nodup, List.nodup_singleton _, ?_⟩
    intro i hi j hj heq
    obtain ⟨y, hy, rfl⟩ := List.mem_map.mp hi
    exact hnew hy (heq.trans (List.mem_singleton.mp hj))
  case sockets_nodup =>
    rw [List.map_append, List.nodup_append]
    refine ⟨ho.sockets_nodup, List.nodup_singleton _, ?_⟩
    intro i hi j hj heq
    obtain ⟨y, hy, rfl⟩ := List.mem_map.mp hi
    have hlt := ho.numbered y hy
    rw [heq, List.mem_singleton.mp hj, hsocket] at hlt
    exact Nat.lt_irrefl _ hlt
  case numbered =>
    refine hsplit (fun y hy => Nat.lt_succ_of_lt (ho.numbered y hy)) ?_
    rw [hsocket]
    exact Nat.lt_succ_self _
  case running => exact ho.running.append (List.Sublist.refl _)
  case held =>
    intro y hy
    rcases List.mem_append.mp hy with hin | heq
    · exact hkept.held y hin
    · rw [List.mem_singleton.mp heq, hn.registered]
      exact Or.inl (mem_insertPeer.mpr (Or.inl rfl))
  case ended =>
    intro y hy hout
    rw [List.mem_append, not_or] at hout
    rcases List.mem_append.mp hy with hin | hlast
    · exact hkept.ended y hin hout.1
    · exact absurd hlast hout.2

end Open

section Step

variable {s : Server}

theorem opened_read (x : Session) (ms : List Message) (s : Server) :
    (read x ms s).1.opened = s.opened := by
  fun_induction read x ms s with
  | case1 => rfl
  | case2 => rfl
  | case3 ms s text _ ih => exact ih
  | case4 => rfl
  | case5 m ms s _ _ _ ih => exact ih

variable {xs : List Session} (ho : Orderly xs s)

include ho

theorem Orderly.read {x : Session} (hx : x ∈ s.sessions) (ms : List Message) :
    Orderly xs (read x ms s).1 := by
  obtain ⟨hhub, hsessions⟩ := hub_read (ho.attached x hx) ms
  refine ho.run ?_ hhub hsessions (opened_read x ms s)
  exact fun op hop => spares_of_entersByConnect (entersByConnect_readCalls x ms s op hop) xs

theorem Orderly.receive {x : Session} (hx : x ∈ s.sessions) (ms : List Message) :
    Orderly xs (s.receive x ms).1 ∧ (s.receive x ms).1.AtRest := by
  have hrest := (ho.read hx ms).settle
  simp only [Server.receive]
  split
  next hover =>
    have hin : x ∈ (Server.settle (Server.read x ms s).1).1.sessions := by
      simpa using ((Bool.and_eq_true _ _).mp hover).2
    exact (hrest.1.endSession hin).settle
  next => exact hrest

/-- One action further. -/
theorem Orderly.step (t : Moment) {a : Action} (ha : ∀ op, a = .hub op → Spares xs op) :
    Orderly (xs ++ (s.begins t a).toList) (s.step t a).1 ∧ (s.step t a).1.AtRest := by
  cases a with
  | request r =>
    obtain ⟨m, hm⟩ := answer_eq_with_metrics t false r s
    simp only [Server.step, rest, begins, hm, Option.toList_none, List.append_nil]
    have hsame : Orderly xs { s with metrics := m } := ho.of_eq rfl rfl rfl
    exact hsame.settle
  | setReady ready =>
    simp only [Server.step, rest, begins, Option.toList_none, List.append_nil]
    have hsame : Orderly xs { s with ready } := ho.of_eq rfl rfl rfl
    exact hsame.settle
  | openSocket r =>
    simp only [Server.step, rest]
    cases hbegins : s.begins t (.openSocket r) with
    | none =>
      obtain ⟨m, a, heq⟩ := openSocket_of_begins_eq_none hbegins
      rw [heq, Option.toList_none, List.append_nil]
      have hsame : Orderly xs { s with metrics := m } := ho.of_eq rfl rfl rfl
      exact hsame.settle
    | some x =>
      obtain ⟨user, hub, m, a, hok, hsocket, heq⟩ := openSocket_of_begins_eq_some hbegins
      rw [heq, Option.toList_some]
      exact (ho.open hok hsocket m).settle
  | receive socket ms =>
    simp only [Server.step, begins, Option.toList_none, List.append_nil]
    cases hfound : s.session? socket with
    | none => exact ho.settle
    | some x => exact ho.receive (List.mem_of_find?_eq_some hfound) ms
  | hub op =>
    simp only [Server.step, rest, begins, Option.toList_none, List.append_nil]
    have hdone : Orderly xs { s with hub := (s.hub.perform op).1 } :=
      ho.perform (ha op rfl) rfl rfl rfl
    exact hdone.settle

end Step

end Server

end ChatHub
