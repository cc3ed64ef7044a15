import ChatHub.Proofs.Hub.Stream
import ChatHub.Server.Action
/-!
What a server asks of its hub.  Everything that a request, a socket or the rest of the program does
to the hub is an operation of the hub, so that the hub of a server is always that after the list of
them; sessions go through the same doors as everybody else.
-/

namespace ChatHub

/-- A connection whose reader has taken all frames. -/
def Connection.empty (c : Connection) : Connection :=
  { c with queue := { c.queue with waiting := [] } }

namespace Hub

section Take

variable {h : Hub} {p : Peer}

theorem waiting_length_update_empty_le (q : Peer) :
    ((h.update p Connection.empty).connection q).queue.waiting.length ≤
      (h.connection q).queue.waiting.length := by
  by_cases heq : q.handle = p.handle
  · rw [connection_update_of_handle_eq p q _ h heq rfl]
    exact Nat.zero_le _
  · rw [connection_update_of_ne p q _ h heq]

/-- Readers one after the other, each of which takes as much as there may be. -/
theorem run_takes {xs : List Session} {m : Session → Nat} (hxs : ∀ x ∈ xs, h.Knows x.peer)
    (hm : ∀ x ∈ xs, (h.connection x.peer).queue.waiting.length ≤ m x) :
    h.run (xs.flatMap fun x => List.replicate (m x) (.take x.peer.handle)) =
      xs.foldl (fun h x => h.update x.peer Connection.empty) h := by
  induction xs generalizing h with
  | nil => rfl
  | cons x xs ih =>
    have hfirst : h.run (List.replicate (m x) (.take x.peer.handle)) =
        h.update x.peer Connection.empty := by
      rw [run_replicate_take _ (hxs x List.mem_cons_self)]
      apply update_congr
      rw [Connection.unload, List.drop_eq_nil_of_le (hm x List.mem_cons_self)]
      rfl
    rw [List.flatMap_cons, run_append, hfirst, List.foldl_cons]
    apply ih
    · exact fun y hy => (hxs y (List.mem_cons_of_mem x hy)).update fun _ => rfl
    · exact fun y hy =>
        (waiting_length_update_empty_le y.peer).trans (hm y (List.mem_cons_of_mem x hy))

end Take

theorem Knows.run {h : Hub} {p : Peer} (hp : h.Knows p) (ops : List Operation) :
    (h.run ops).Knows p :=
  (Trail.run h ops).peer?_of_some hp

end Hub

namespace Server

open Hub (Operation)

/-- The connections of all sessions are in the hub's table. -/
def Attached (s : Server) : Prop := ∀ x ∈ s.sessions, s.hub.Knows x.peer

theorem Attached.of_run {s s' : Server} (ha : s.Attached) {ops : List Operation}
    (hhub : s'.hub = s.hub.run ops) (hsessions : s'.sessions ⊆ s.sessions) : s'.Attached := by
  intro x hx
  rw [hhub]
  exact (ha x (hsessions hx)).run ops

/-- All that waits in the queues of the sessions is taken. -/
def flushCalls (s : Server) : List Operation :=
  s.sessions.flatMap fun x =>
    List.replicate (s.queue x).waiting.length (.take x.peer.handle)

/-- The connection of a session is taken off, and its queue is left. -/
def endCalls (x : Session) : List Operation :=
  [.unregister x.peer.handle, .abandon x.peer.handle]

/-- What is asked of the hub until everything has come to rest. -/
def settleCalls (s : Server) : List Operation :=
  let flushed := (flush s).1
  match _h : flushed.sessions.find? fun x => (flushed.queue x).closed with
  | none => s.flushCalls
  | some x => s.flushCalls ++ (endCalls x ++ settleCalls (flushed.endSession x))
termination_by s.sessions.length
decreasing_by
  have hm : x ∈ s.sessions := List.mem_of_find?_eq_some _h
  have hp : 0 < s.sessions.length := List.length_pos_of_mem hm
  have he : (s.sessions.erase x).length = s.sessions.length - 1 := List.length_erase_of_mem hm
  show (s.sessions.erase x).length < s.sessions.length
  omega

/-- The commands among the messages that a session reads. -/
def readCalls (x : Session) : List Message → Server → List Operation
  | [], _ => []
  | m :: ms, s =>
      if (s.queue x).closed || sizeLimit s.config < m.size then []
      else
        match m with
        | .text t => .handleText x.peer.handle t :: readCalls x ms (s.handleText x t)
        | .close => []
        | _ => readCalls x ms s

def receiveCalls (x : Session) (ms : List Message) (s : Server) : List Operation :=
  let (s', isOver) := read x ms s
  let settled := (settle s').1
  readCalls x ms s ++ settleCalls s' ++
    if isOver && settled.sessions.contains x then
      endCalls x ++ settleCalls (settled.endSession x)
    else []

/-- A socket that is opened asks for a connection. -/
def openCalls (t : Moment) (r : Http.Request) (s : Server) : List Operation :=
  match (s.answer t true { r with headers := r.headers.map Http.Header.trimmed }).2.opens with
  | some user => [.connect user]
  | none => []

/-- What an action asks of the hub. -/
def calls (t : Moment) (a : Action) (s : Server) : List Operation :=
  match a with
  | .request r => settleCalls (s.answer t false r).1
  | .setReady ready => settleCalls { s with ready }
  | .openSocket r => s.openCalls t r ++ settleCalls (s.openSocket t r).1
  | .receive socket ms =>
      match s.session? socket with
      | some x => s.receiveCalls x ms
      | none => settleCalls s
  | .hub op => op :: settleCalls { s with hub := (s.hub.perform op).1 }

/-- All that is asked of the hub in a history of the server. -/
def history : Server → List (Moment × Action) → List Operation
  | _, [] => []
  | s, (t, a) :: actions => s.calls t a ++ history (s.step t a).1 actions

section Settle

variable {s : Server}

theorem settle_of_none (hnone : ((flush s).1.sessions.find? fun x =>
    ((flush s).1.queue x).closed) = none) :
    settle s = flush s ∧ settleCalls s = s.flushCalls := by
  rw [settle, settleCalls]
  constructor
  · split
    next => rfl
    next hsome => rw [hnone] at hsome; cases hsome
  · split
    next => rfl
    next hsome => rw [hnone] at hsome; cases hsome

theorem settle_of_some {x : Session} (hsome : ((flush s).1.sessions.find? fun x =>
    ((flush s).1.queue x).closed) = some x) :
    (settle s).1 = (settle ((flush s).1.endSession x)).1 ∧
      settleCalls s =
        s.flushCalls ++ (endCalls x ++ settleCalls ((flush s).1.endSession x)) := by
  rw [settle, settleCalls]
  constructor
  · split
    next hnone => rw [hnone] at hsome; cases hsome
    next y hy =>
      rw [hsome] at hy
      cases hy
      rfl
  · split
    next hnone => rw [hnone] at hsome; cases hsome
    next y hy =>
      rw [hsome] at hy
      cases hy
      rfl

theorem hub_flush (ha : s.Attached) : (flush s).1.hub = s.hub.run s.flushCalls :=
  (Hub.run_takes ha fun _ _ => Nat.le_refl _).symm

theorem hub_endSession {x : Session} (hx : s.hub.Knows x.peer) :
    (s.endSession x).hub = s.hub.run (endCalls x) := by
  have hlater : (s.hub.unregister x.peer).1.peer? x.peer.handle = some x.peer :=
    (Hub.Trail.unregister x.peer s.hub).peer?_of_some hx
  change _ = ((s.hub.perform (.unregister x.peer.handle)).1.perform (.abandon x.peer.handle)).1
  rw [Hub.perform_unregister hx]
  simp only [Hub.perform, Hub.withPeer, hlater]
  rfl

theorem Attached.endSession (ha : s.Attached) {x : Session} (hx : s.hub.Knows x.peer) :
    (s.endSession x).Attached :=
  ha.of_run (hub_endSession hx) List.erase_subset

/-- Coming to rest is a matter of operations of the hub. -/
theorem hub_settle (ha : s.Attached) :
    (settle s).1.hub = s.hub.run (settleCalls s) ∧ (settle s).1.sessions ⊆ s.sessions := by
  induction s using settle.induct with
  | case1 s flushed hnone =>
    obtain ⟨hsettle, hcalls⟩ := settle_of_none hnone
    rw [hsettle, hcalls]
    exact ⟨hub_flush ha, List.Subset.refl _⟩
  | case2 s flushed x hsome _ _ _ ih =>
    obtain ⟨hsettle, hcalls⟩ := settle_of_some hsome
    have hflushed : flushed.Attached := ha.of_run (hub_flush ha) (List.Subset.refl _)
    have hx : flushed.hub.Knows x.peer := hflushed x (List.mem_of_find?_eq_some hsome)
    obtain ⟨hhub, hsessions⟩ := ih (hflushed.endSession hx)
    rw [hsettle, hcalls, Hub.run_append, Hub.run_append, ← hub_flush ha, ← hub_endSession hx]
    exact ⟨hhub, List.Subset.trans hsessions List.erase_subset⟩

end Settle

section Read

variable {x : Session}

theorem hub_handleText {s : Server} (hx : s.hub.Knows x.peer) (text : String) :
    (s.handleText x text).hub = (s.hub.perform (.handleText x.peer.handle text)).1 := by
  rw [Hub.Knows] at hx
  simp only [Hub.perform, Hub.withPeer, hx, handleText]
  cases s.hub.handleText x.peer text with
  | ok h => rfl
  | error e => rfl

theorem hub_read {s : Server} (hx : s.hub.Knows x.peer) (ms : List Message) :
    (read x ms s).1.hub = s.hub.run (readCalls x ms s) ∧
      (read x ms s).1.sessions = s.sessions := by
  induction ms generalizing s with
  | nil => exact ⟨rfl, rfl⟩
  | cons m ms ih =>
    by_cases hover : ((s.queue x).closed || decide (sizeLimit s.config < m.size)) = true
    · simp only [read, readCalls, hover, if_true, and_true]
      rfl
    · cases m with
      | text t =>
        have hlater : (s.handleText x t).hub.Knows x.peer := by
          rw [hub_handleText hx]
          exact hx.run [_]
        obtain ⟨hhub, hsessions⟩ := ih hlater
        simp only [read, readCalls, hover, Bool.false_eq_true, if_false]
        refine ⟨hhub.trans ?_, hsessions⟩
        rw [hub_handleText hx]
        rfl
      | close =>
        simp only [read, readCalls, hover, Bool.false_eq_true, if_false, and_true]
        rfl
      | binary | ping | pong =>
        simp only [read, readCalls, hover, Bool.false_eq_true, if_false]
        exact ih hx

theorem hub_receive {s : Server} (ha : s.Attached) (hx : s.hub.Knows x.peer)
    (ms : List Message) :
    (s.receive x ms).1.hub = s.hub.run (s.receiveCalls x ms) ∧
      (s.receive x ms).1.sessions ⊆ s.sessions := by
  obtain ⟨hread, hkept⟩ := hub_read hx ms
  have hattached : (read x ms s).1.Attached :=
    ha.of_run hread (hkept ▸ List.Subset.refl s.sessions)
  obtain ⟨hrest, hleft⟩ := hub_settle hattached
  rw [hkept] at hleft
  simp only [receive, receiveCalls]
  by_cases hover : ((read x ms s).2 && (settle (read x ms s).1).1.sessions.contains x) = true
  · have hsettled := hattached.of_run hrest (hkept ▸ hleft)
    have hknown : (settle (read x ms s).1).1.hub.Knows x.peer := by
      rw [hrest, hread]
      exact (hx.run _).run _
    obtain ⟨hlast, hgone⟩ := hub_settle (hsettled.endSession hknown)
    simp only [hover, if_true, Hub.run_append, ← hread, ← hrest, ← hub_endSession hknown]
    exact ⟨hlast, List.Subset.trans hgone (List.Subset.trans List.erase_subset hleft)⟩
  · simp only [hover, Bool.false_eq_true, if_false, List.append_nil, Hub.run_append, ← hread]
    exact ⟨hrest, hleft⟩

end Read

section Answer

variable (t : Moment) (canUpgrade : Bool) (r : Http.Request) (s : Server)

/-- Requests are answered without a word to the hub. -/
theorem answer_eq_with_metrics : ∃ m, (s.answer t canUpgrade r).1 = { s with metrics := m } := by
  have hupgrade (s : Server) :
      ∃ m, (s.answerUpgrade t canUpgrade r).1 = { s with metrics := m } := by
    rw [answerUpgrade]
    split
    next => exact ⟨s.metrics, rfl⟩
    next => exact ⟨_, rfl⟩
  have hat (s : Server) (place : Route) :
      ∃ m, (s.answerAt t canUpgrade r place).1 = { s with metrics := m } := by
    cases place with
    | socket => exact hupgrade s
    | metrics => exact ⟨_, rfl⟩
    | voiceRooms | stats | health | liveness | readiness => exact ⟨s.metrics, rfl⟩
  have hroute (s : Server) : ∃ m, (s.route t canUpgrade r).1 = { s with metrics := m } := by
    rw [route]
    split
    next => exact ⟨s.metrics, rfl⟩
    next place _ =>
      split
      next => exact hat s place
      next =>
        split
        next => exact hat s place
        next => exact ⟨s.metrics, rfl⟩
  obtain ⟨m, hm⟩ :=
    hroute { s with metrics := { s.metrics with inFlight := s.metrics.inFlight + 1 } }
  simp only [answer, hm]
  exact ⟨_, rfl⟩

end Answer

section Step

variable {s : Server} (ha : s.Attached)

include ha

theorem hub_startSession (user : UserId) :
    (s.startSession user).1.hub = (s.hub.perform (.connect user)).1 ∧
      (s.startSession user).1.Attached := by
  simp only [startSession, Hub.perform]
  cases hok : s.hub.connect user with
  | error e => exact ⟨rfl, ha⟩
  | ok made =>
    have hn := Hub.connected_of_connect hok
    refine ⟨rfl, fun x hx => ?_⟩
    rcases List.mem_append.mp hx with hold | hnew
    · exact hn.knows_iff.mpr (Or.inr (ha x hold))
    · rw [List.mem_singleton.mp hnew]
      exact hn.knows

theorem hub_openSocket (t : Moment) (r : Http.Request) :
    (s.openSocket t r).1.hub = s.hub.run (s.openCalls t r) ∧ (s.openSocket t r).1.Attached := by
  let trimmed : Http.Request := { r with headers := r.headers.map Http.Header.trimmed }
  obtain ⟨m, hm⟩ := answer_eq_with_metrics t true trimmed s
  have hanswered : ({ s with metrics := m } : Server).Attached := ha
  simp only [openSocket, openCalls, hm, trimmed]
  cases (s.answer t true { r with headers := r.headers.map Http.Header.trimmed }).2.opens with
  | none => exact ⟨rfl, ha⟩
  | some user => exact hub_startSession hanswered user

/-- The hub after an action is that after what the action asks of it. -/
theorem hub_step (t : Moment) (a : Action) :
    (s.step t a).1.hub = s.hub.run (s.calls t a) ∧ (s.step t a).1.Attached := by
  have hrest {s' : Server} (ha' : s'.Attached) :
      (settle s').1.hub = s'.hub.run (settleCalls s') ∧ (settle s').1.Attached := by
    obtain ⟨hhub, hsessions⟩ := hub_settle ha'
    exact ⟨hhub, ha'.of_run hhub hsessions⟩
  cases a with
  | request r =>
    obtain ⟨m, hm⟩ := answer_eq_with_metrics t false r s
    simp only [step, rest, calls, hm]
    exact hrest ha
  | setReady ready => exact hrest ha
  | openSocket r =>
    obtain ⟨hopen, hattached⟩ := hub_openSocket ha t r
    simp only [step, rest, calls, Hub.run_append, ← hopen]
    exact hrest hattached
  | receive socket ms =>
    simp only [step, calls]
    cases hfound : s.session? socket with
    | none => exact hrest ha
    | some x =>
      have hx := ha x (List.mem_of_find?_eq_some hfound)
      obtain ⟨hhub, hsessions⟩ := hub_receive ha hx ms
      exact ⟨hhub, ha.of_run hhub hsessions⟩
  | hub op =>
    have hrun : (s.hub.perform op).1 = s.hub.run [op] := rfl
    have hattached : ({ s with hub := (s.hub.perform op).1 } : Server).Attached :=
      ha.of_run hrun (List.Subset.refl _)
    exact hrest hattached

theorem hub_run (actions : List (Moment × Action)) :
    (s.run actions).hub = s.hub.run (s.history actions) := by
  induction actions generalizing s with
  | nil => rfl
  | cons a actions ih =>
    obtain ⟨hstep, hattached⟩ := hub_step ha a.1 a.2
    rw [history, Hub.run_append, ← hstep]
    exact ih hattached

end Step

theorem attached_new (config : Config) : (new config).Attached := by
  simp [Attached, new]

section EntersByConnect

/-- The program brings nobody into the set by this action, except in the way that the limit
guards. -/
def Action.entersByConnect : Action → Bool
  | .hub op => op.entersByConnect
  | _ => true

theorem entersByConnect_flushCalls {s : Server} :
    ∀ op ∈ s.flushCalls, op.entersByConnect = true := by
  intro op hop
  obtain ⟨x, _, hin⟩ := List.mem_flatMap.mp hop
  rw [List.eq_of_mem_replicate hin]
  rfl

theorem entersByConnect_endCalls {x : Session} :
    ∀ op ∈ endCalls x, op.entersByConnect = true := by
  simp [endCalls, Operation.entersByConnect]

theorem entersByConnect_settleCalls (s : Server) :
    ∀ op ∈ settleCalls s, op.entersByConnect = true := by
  induction s using settle.induct with
  | case1 s flushed hnone =>
    rw [(settle_of_none hnone).2]
    exact entersByConnect_flushCalls
  | case2 s flushed x hsome _ _ _ ih =>
    rw [(settle_of_some hsome).2]
    intro op hop
    rcases List.mem_append.mp hop with hin | hin
    · exact entersByConnect_flushCalls op hin
    · exact (List.mem_append.mp hin).elim (entersByConnect_endCalls op) (ih op)

theorem entersByConnect_readCalls (x : Session) (ms : List Message) (s : Server) :
    ∀ op ∈ readCalls x ms s, op.entersByConnect = true := by
  induction ms generalizing s with
  | nil => simp [readCalls]
  | cons m ms ih =>
    unfold readCalls
    split
    next => simp
    next =>
      cases m with
      | text t =>
        intro op hop
        rcases List.mem_cons.mp hop with rfl | hin
        · rfl
        · exact ih _ op hin
      | close => simp
      | binary | ping | pong => exact ih s

theorem entersByConnect_receiveCalls (x : Session) (ms : List Message) (s : Server) :
    ∀ op ∈ s.receiveCalls x ms, op.entersByConnect = true := by
  intro op hop
  simp only [receiveCalls, List.mem_append] at hop
  rcases hop with (hin | hin) | hin
  · exact entersByConnect_readCalls x ms s op hin
  · exact entersByConnect_settleCalls _ op hin
  · split at hin
    · exact (List.mem_append.mp hin).elim (entersByConnect_endCalls op)
        (entersByConnect_settleCalls _ op)
    · cases hin

theorem entersByConnect_openCalls (t : Moment) (r : Http.Request) (s : Server) :
    ∀ op ∈ s.openCalls t r, op.entersByConnect = true := by
  rw [openCalls]
  split
  · simp [Operation.entersByConnect]
  · simp

theorem entersByConnect_calls (t : Moment) {a : Action} (h : a.entersByConnect = true)
    (s : Server) : ∀ op ∈ s.calls t a, op.entersByConnect = true := by
  cases a with
  | request | setReady => exact entersByConnect_settleCalls _
  | openSocket r =>
    intro op hop
    exact (List.mem_append.mp hop).elim (entersByConnect_openCalls t r s op)
      (entersByConnect_settleCalls _ op)
  | receive socket ms =>
    simp only [calls]
    split
    next x _ => exact entersByConnect_receiveCalls x ms s
    next => exact entersByConnect_settleCalls s
  | hub op =>
    intro o ho
    rcases List.mem_cons.mp ho with rfl | hin
    · exact h
    · exact entersByConnect_settleCalls _ o hin

/-- A socket gets its connection by the door that everybody else uses. -/
theorem entersByConnect_history {s : Server} {actions : List (Moment × Action)}
    (h : ∀ a ∈ actions, a.2.entersByConnect = true) :
    ∀ op ∈ s.history actions, op.entersByConnect = true := by
  induction actions generalizing s with
  | nil => simp [history]
  | cons a actions ih =>
    intro op hop
    rcases List.mem_append.mp hop with hin | hin
    · exact entersByConnect_calls a.1 (h a List.mem_cons_self) s op hin
    · exact ih (fun b hb => h b (List.mem_cons_of_mem a hb)) op hin

end EntersByConnect

end Server

end ChatHub
