import ChatHub.Proofs.Hub.Finality
import ChatHub.Proofs.Server.Measurements
/-!
What a client says over its socket comes to no more than handing its texts to the hub, one after
another, while readers take what waits for them.
-/

namespace ChatHub

open Hub (Operation)

namespace Hub

/-- The hub when a text has been handed to it; one that is no command leaves it as it is. -/
def handed (p : Peer) (text : String) (h : Hub) : Hub :=
  match h.handleText p text with
  | .ok h' => h'
  | .error _ => h

variable {h : Hub} {c p : Peer} {text : String}

theorem Firm.handed (hf : h.Firm c) (hown : h.OwnName c) (hp : h.Knows p) (text : String) :
    (h.handed p text).Firm c := by
  rw [Hub.handed, handleText]
  cases Command.decode text with
  | error e => exact hf
  | ok command => exact hf.handle hown hp command

end Hub

namespace Server

section Readers

/-- Whether the hub has closed the queue that the session reads from. -/
def isCut (h : Hub) (x : Session) : Bool := (h.connection x.peer).queue.closed

/-- All that waits for the sessions is taken. -/
def unload (xs : List Session) (h : Hub) : Hub :=
  xs.foldl (fun h x => h.update x.peer Connection.empty) h

/-- The sessions let go of their queues. -/
def letGo (xs : List Session) (h : Hub) : Hub :=
  xs.foldl (fun h x => h.update x.peer fun c => { c with queue := c.queue.abandon }) h

/-- What waits for the sessions, each frame with the number of the socket. -/
def awaited (xs : List Session) (h : Hub) : List (Nat × Frame) :=
  xs.flatMap fun x => (h.connection x.peer).queue.waiting.map fun f => (x.socket, f)

/-- What comes of handing texts to a hub. -/
structure Dialogue where
  hub : Hub
  /-- The sessions that still read. -/
  readers : List Session
  sent : List (Nat × Frame)
  /-- The texts that were handed over. -/
  heard : List String

/-- Hands texts to the hub for the connection of `x`, one after another until its queue is closed.
After each the readers take what waits for them, and those that find their queue closed behind it
let go of it. -/
def converse (x : Session) : List String → Hub → List Session → Dialogue
  | [], h, xs => ⟨h, xs, [], []⟩
  | text :: texts, h, xs =>
      if isCut h x then ⟨h, xs, [], []⟩
      else
        let h := h.handed x.peer text
        let rest := converse x texts (letGo (xs.filter (isCut h)) (unload xs h))
          (xs.filter fun y => !isCut h y)
        { rest with sent := awaited xs h ++ rest.sent, heard := text :: rest.heard }

end Readers

/-- The frame, unless something else was sent. -/
def Emission.frame? : Emission → Option (Nat × Frame)
  | ⟨socket, .frame f⟩ => some (socket, f)
  | _ => none

def Message.text? : Message → Option String
  | .text t => some t
  | _ => none

/-- All that is sent in a history of the server. -/
def emitted : Server → List (Moment × Action) → List Emission
  | _, [] => []
  | s, (t, a) :: actions => (s.step t a).2.2 ++ (s.step t a).1.emitted actions

section Settle

variable {xs : List Session} {s : Server} {x : Session}

theorem isCut_update {p : Peer} {f : Connection → Connection} {h : Hub}
    (hf : ∀ c, (f c).queue.closed = c.queue.closed) : isCut (h.update p f) = isCut h :=
  funext fun x => Hub.closed_update (c := x.peer) hf

theorem isCut_unload (xs : List Session) (h : Hub) : isCut (unload xs h) = isCut h := by
  induction xs generalizing h with
  | nil => rfl
  | cons x xs ih => exact (ih _).trans (isCut_update fun _ => rfl)

theorem final_unload {c : Peer} (xs : List Session) {h : Hub} (hf : h.Final c) :
    (unload xs h).Final c := by
  induction xs generalizing h with
  | nil => exact hf
  | cons x xs ih => exact ih (hf.update (fun _ => rfl) fun _ => rfl)

theorem frames_flush (s : Server) :
    (flush s).2.filterMap Emission.frame? = awaited s.sessions s.hub := by
  simp only [flush, awaited, List.filterMap_flatMap, List.filterMap_map]
  apply List.flatMap_congr
  intro x _
  exact congrFun List.filterMap_eq_map _

theorem settle_eq_of_some (hsome : ((flush s).1.sessions.find? fun x =>
    ((flush s).1.queue x).closed) = some x) :
    settle s = ((settle ((flush s).1.endSession x)).1,
      (flush s).2 ++ ⟨x.socket, .close⟩ :: (settle ((flush s).1.endSession x)).2) := by
  rw [settle]
  split
  next hnone => rw [hsome] at hnone; cases hnone
  next y hy =>
    rw [hsome] at hy
    cases hy
    rfl

/-- To send what waits and then to come to rest is to come to rest. -/
theorem settle_flush (ha : s.Attached) :
    settle s = ((settle (flush s).1).1, (flush s).2 ++ (settle (flush s).1).2) := by
  have hflush : flush (flush s).1 = ((flush s).1, []) :=
    flush_of_drained fun x hx => waiting_flush ha hx
  cases hfound : (flush s).1.sessions.find? fun x => ((flush s).1.queue x).closed with
  | none =>
    have hnone : ((flush (flush s).1).1.sessions.find? fun x =>
        ((flush (flush s).1).1.queue x).closed) = none := by rw [hflush]; exact hfound
    rw [(settle_of_none hfound).1, (settle_of_none hnone).1, hflush, List.append_nil]
  | some x =>
    have hsome : ((flush (flush s).1).1.sessions.find? fun x =>
        ((flush (flush s).1).1.queue x).closed) = some x := by rw [hflush]; exact hfound
    rw [settle_eq_of_some hfound, settle_eq_of_some hsome, hflush]
    rfl

theorem filter_of_find? {α : Type} [DecidableEq α] {q : α → Bool} {l : List α} {a : α}
    (hfound : l.find? q = some a) : l.filter q = a :: (l.erase a).filter q ∧
      (l.filter fun b => !q b) = (l.erase a).filter fun b => !q b := by
  induction l with
  | nil => cases hfound
  | cons b l ih =>
    rw [List.find?_cons] at hfound
    cases hb : q b with
    | true =>
      rw [hb] at hfound
      cases hfound
      simp [hb]
    | false =>
      rw [hb] at hfound
      have hne : b ≠ a := by
        rintro rfl
        exact Bool.false_ne_true (hb.symm.trans (List.find?_some hfound))
      rw [List.erase_cons_tail (by simpa using hne)]
      simpa [hb] using ih hfound

/-- To end a session whose connection is spent is to let go of its queue. -/
theorem endSession_of_spent (hs : s.hub.Spent x.peer) (hrooms : s.hub.rooms.Valid) :
    s.endSession x = { s with sessions := s.sessions.erase x, hub := letGo [x] s.hub } := by
  simp only [endSession, hs.unregister_eq hrooms, letGo, List.foldl_cons, List.foldl_nil]

/-- A queue in which nothing waits stays so when somebody lets go of a queue. -/
theorem waiting_letGo {p : Peer} {h : Hub} (hnil : (h.connection p).queue.waiting = []) :
    ((letGo [x] h).connection p).queue.waiting = [] := by
  by_cases heq : p.handle = x.peer.handle
  · exact congrArg (fun c => c.queue.waiting) (Hub.connection_update_of_handle_eq x.peer p
      (fun c => { c with queue := c.queue.abandon }) h heq rfl)
  · have hother := Hub.connection_update_of_ne x.peer p
      (fun c => { c with queue := c.queue.abandon }) h heq
    exact (congrArg (fun c => c.queue.waiting) hother).trans hnil

/-- Where nothing waits, and of those who have been cut off nothing is left but their queues, these
are all that goes. -/
theorem Orderly.settle_of_drained (ho : Orderly xs s)
    (hdrained : ∀ x ∈ s.sessions, (s.queue x).waiting = [])
    (hfinal : ∀ x ∈ s.sessions, s.hub.Final x.peer) :
    (Server.settle s).1 = { s with
      hub := letGo (s.sessions.filter (isCut s.hub)) s.hub
      sessions := s.sessions.filter fun x => !isCut s.hub x } ∧
      (Server.settle s).2.filterMap Emission.frame? = [] := by
  induction s using Server.settle.induct with
  | case1 s flushed hnone =>
    have hflush : Server.flush s = (s, []) := flush_of_drained hdrained
    have hsame : flushed = s := congrArg Prod.fst hflush
    have hnobody : ∀ x ∈ s.sessions, isCut s.hub x = false := by
      rw [hsame] at hnone
      exact fun x hx => Bool.eq_false_iff.mpr (List.find?_eq_none.mp hnone x hx)
    have hcut : s.sessions.filter (isCut s.hub) = [] :=
      List.filter_eq_nil_iff.mpr fun x hx => Bool.eq_false_iff.mp (hnobody x hx)
    have hrest : (s.sessions.filter fun x => !isCut s.hub x) = s.sessions :=
      List.filter_eq_self.mpr fun x hx => by rw [hnobody x hx]; rfl
    rw [(settle_of_none hnone).1, hflush, hcut, hrest]
    exact ⟨rfl, rfl⟩
  | case2 s flushed x hsome _ _ _ ih =>
    have hflush : Server.flush s = (s, []) := flush_of_drained hdrained
    have hsame : flushed = s := congrArg Prod.fst hflush
    rw [settle_eq_of_some hsome, hflush]
    rw [hsame] at hsome ih
    have hx : x ∈ s.sessions := List.mem_of_find?_eq_some hsome
    have hcut : isCut s.hub x = true := List.find?_some hsome
    have hfound : s.sessions.find? (isCut s.hub) = some x := hsome
    obtain ⟨hcutted, hkept⟩ := filter_of_find? hfound
    have hended := endSession_of_spent (hfinal x hx hcut) ho.tidy.rooms
    have hsamecut : isCut (s.endSession x).hub = isCut s.hub := by
      rw [hended]
      exact isCut_update fun _ => rfl
    have hdrained' : ∀ y ∈ (s.endSession x).sessions, ((s.endSession x).queue y).waiting = [] := by
      intro y hy
      rw [queue, hended]
      exact waiting_letGo (hdrained y (List.mem_of_mem_erase hy))
    have hfinal' : ∀ y ∈ (s.endSession x).sessions, (s.endSession x).hub.Final y.peer := by
      intro y hy
      rw [hended]
      exact (hfinal y (List.mem_of_mem_erase hy)).update (fun _ => rfl) fun _ => rfl
    obtain ⟨hstate, hframes⟩ := ih (ho.endSession hx) hdrained' hfinal'
    rw [hsamecut] at hstate
    refine ⟨?_, hframes⟩
    rw [hstate, hended, hcutted, hkept]
    rfl

/-- Coming to rest, when of those who have been cut off nothing is left but their queues. -/
theorem Orderly.settle_of_final (ho : Orderly xs s)
    (hfinal : ∀ x ∈ s.sessions, s.hub.Final x.peer) :
    (Server.settle s).1 = { s with
      hub := letGo (s.sessions.filter (isCut s.hub)) (unload s.sessions s.hub)
      sessions := s.sessions.filter fun x => !isCut s.hub x } ∧
      (Server.settle s).2.filterMap Emission.frame? = awaited s.sessions s.hub := by
  have hdrained : ∀ x ∈ (Server.flush s).1.sessions, ((Server.flush s).1.queue x).waiting = [] :=
    fun x hx => waiting_flush ho.attached hx
  have hfinal' : ∀ x ∈ (Server.flush s).1.sessions, (Server.flush s).1.hub.Final x.peer :=
    fun x hx => final_unload s.sessions (hfinal x hx)
  obtain ⟨hstate, hframes⟩ := ho.flush.settle_of_drained hdrained hfinal'
  have hcut : isCut (Server.flush s).1.hub = isCut s.hub := isCut_unload s.sessions s.hub
  rw [settle_flush ho.attached, List.filterMap_append, hframes, frames_flush, List.append_nil,
    hstate, hcut]
  exact ⟨rfl, rfl⟩

end Settle

section Converse

variable {xs : List Session} {s : Server} (hr : s.AtRest) {x : Session} {m : Message}

include hr

/-- A session that is running reads on while messages are small enough. -/
theorem AtRest.reads (hx : x ∈ s.sessions) (hsize : m.size ≤ sizeLimit s.config) :
    ((s.queue x).closed || decide (sizeLimit s.config < m.size)) = false := by
  rw [hr.opened x hx, Bool.false_or, decide_eq_false_iff_not]
  exact Nat.not_lt.mpr hsize

/-- Anything but a text is passed over, unless it ends the session. -/
theorem AtRest.receive_other (hx : x ∈ s.sessions) (hsize : m.size ≤ sizeLimit s.config)
    (hclose : m ≠ .close) (htext : m.text? = none) : s.receive x [m] = (s, []) := by
  have hread : read x [m] s = (s, false) := by
    cases m with
    | text t => cases htext
    | close => exact absurd rfl hclose
    | binary | ping | pong => simp only [read, hr.reads hx hsize, Bool.false_eq_true, if_false]
  simp only [receive, hread, hr.settle_eq, Bool.false_and, Bool.false_eq_true, if_false]

/-- Of a message that comes by itself its text is heard. -/
theorem AtRest.readTexts_eq (hx : x ∈ s.sessions) (hsize : m.size ≤ sizeLimit s.config)
    (hclose : m ≠ .close) : readTexts x [m] s = m.text?.toList := by
  cases m with
  | close => exact absurd rfl hclose
  | text | binary | ping | pong =>
    simp only [readTexts, hr.reads hx hsize, Bool.false_eq_true, if_false, Message.text?,
      Option.toList_some, Option.toList_none]

variable (ho : Orderly xs s)

include ho

/-- A text that comes by itself is handed to the hub, and the readers do the rest. -/
theorem AtRest.receive_text (hx : x ∈ s.sessions) {text : String}
    (hsize : (Message.text text).size ≤ sizeLimit s.config) :
    let h := s.hub.handed x.peer text
    (s.receive x [.text text]).1 = { s with
      metrics := s.metrics.recordCommand (commandLabel text)
      hub := letGo (s.sessions.filter (isCut h)) (unload s.sessions h)
      sessions := s.sessions.filter fun y => !isCut h y } ∧
      (s.receive x [.text text]).2.filterMap Emission.frame? = awaited s.sessions h := by
  intro h
  have hread : Server.read x [.text text] s = (s.handleText x text, false) := by
    simp only [Server.read, hr.reads hx hsize, Bool.false_eq_true, if_false]
  have hreceive : s.receive x [.text text] = Server.settle (s.handleText x text) := by
    simp only [Server.receive, hread, Bool.false_and, Bool.false_eq_true, if_false]
  have hlater : Orderly xs (s.handleText x text) := by
    have hkept := ho.read hx [.text text]
    rwa [hread] at hkept
  have hfinal : ∀ y ∈ s.sessions, h.Final y.peer := by
    intro y hy
    have hin : y ∈ xs := ho.running.subset hy
    have hfirm : s.hub.Firm y.peer := ⟨ho.tidy, ho.known y hin, fun hclosed =>
      absurd ((hr.opened y hy).symm.trans hclosed) Bool.false_ne_true⟩
    have hown := ho.namesTell.ownName (ho.known y hin) (ho.named y hin)
    exact (hfirm.handed hown (ho.attached x hx) text).final
  rw [hreceive]
  exact hlater.settle_of_final hfinal

end Converse

/-- The actions by which messages come over the socket of a session one at a time. -/
def arrivals (x : Session) (script : List (Moment × Message)) : List (Moment × Action) :=
  script.map fun e => (e.1, .receive x.socket [e.2])

/-- The texts among messages. -/
def textsOf (script : List (Moment × Message)) : List String :=
  script.filterMap fun e => e.2.text?

/-- Messages that come over the socket of `x` have the effect of their texts, handed to the hub as
long as the queue of `x` is open. -/
structure Agrees (x : Session) (script : List (Moment × Message)) (s : Server) (d : Dialogue) :
    Prop where
  hub : (s.run (arrivals x script)).hub = d.hub
  sessions : (s.run (arrivals x script)).sessions = d.readers
  sent : (s.emitted (arrivals x script)).filterMap Emission.frame? = d.sent
  heard : s.heard (arrivals x script) = d.heard
  metrics : (s.run (arrivals x script)).metrics = countTexts d.heard s.metrics

section Agree

variable {xs : List Session} {x : Session} {script : List (Moment × Message)}

theorem agrees_nil (x : Session) (s : Server) : Agrees x [] s ⟨s.hub, s.sessions, [], []⟩ :=
  ⟨rfl, rfl, rfl, rfl, rfl⟩

theorem Agrees.cons {t : Moment} {m : Message} {s : Server} {d : Dialogue}
    (hrest : Agrees x script (s.step t (.receive x.socket [m])).1 d) :
    Agrees x ((t, m) :: script) s { d with
      sent := (s.step t (.receive x.socket [m])).2.2.filterMap Emission.frame? ++ d.sent
      heard := s.heardIn (.receive x.socket [m]) ++ d.heard } where
  hub := hrest.hub
  sessions := hrest.sessions
  sent := by
    rw [← hrest.sent, ← List.filterMap_append]
    rfl
  heard := congrArg (_ ++ ·) hrest.heard
  metrics := by
    rw [countTexts_append, ← metrics_step_receive t]
    exact hrest.metrics

/-- Nothing that comes when the session has ended has any effect. -/
theorem Orderly.agrees_of_ended {s : Server} (ho : Orderly xs s) (hr : s.AtRest) (hx : x ∈ xs)
    (hout : x ∉ s.sessions) (script : List (Moment × Message)) :
    Agrees x script s ⟨s.hub, s.sessions, [], []⟩ := by
  induction script with
  | nil => exact agrees_nil x s
  | cons e script ih =>
    have hstep := (ho.forgotten hr hx hout).unheard e.1 [e.2]
    have hnone : s.heardIn (.receive x.socket [e.2]) = [] := by
      simp only [heardIn, ho.session?_eq_none hx hout, Option.elim_none]
    have hrest : Agrees x script (s.step e.1 (.receive x.socket [e.2])).1
        ⟨s.hub, s.sessions, [], []⟩ := hstep ▸ ih
    have hall := hrest.cons
    rw [hstep, hnone] at hall
    exact hall

theorem converse_of_isCut {h : Hub} (hcut : isCut h x = true) (texts : List String)
    (ys : List Session) : converse x texts h ys = ⟨h, ys, [], []⟩ := by
  cases texts with
  | nil => rfl
  | cons text texts => rw [converse, if_pos hcut]

theorem Orderly.agrees {s : Server} (ho : Orderly xs s) (hr : s.AtRest) (hx : x ∈ s.sessions)
    (hscript : ∀ e ∈ script, e.2 ≠ .close ∧ e.2.size ≤ sizeLimit s.config) :
    Agrees x script s (converse x (textsOf script) s.hub s.sessions) := by
  induction script generalizing s with
  | nil => exact agrees_nil x s
  | cons e script ih =>
    obtain ⟨t, m⟩ := e
    obtain ⟨hclose, hsize⟩ := hscript (t, m) List.mem_cons_self
    have hlater := fun e he => hscript e (List.mem_cons_of_mem (t, m) he)
    have hin : x ∈ xs := ho.running.subset hx
    have hfound : s.session? x.socket = some x := ho.session?_eq_some.mpr ⟨hx, rfl⟩
    have hstep : s.step t (.receive x.socket [m]) =
        ((s.receive x [m]).1, .received, (s.receive x [m]).2) := by
      simp only [Server.step, hfound]
    have hheard : s.heardIn (.receive x.socket [m]) = m.text?.toList := by
      rw [heardIn, hfound]
      exact hr.readTexts_eq hx hsize hclose
    cases htext : m.text? with
    | none =>
      have hsame : s.receive x [m] = (s, []) := hr.receive_other hx hsize hclose htext
      have hrest : Agrees x script (s.step t (.receive x.socket [m])).1
          (converse x (textsOf script) s.hub s.sessions) := by
        rw [hstep, hsame]
        exact ih ho hr hx hlater
      have hall := hrest.cons
      rw [hheard, hstep, hsame, htext] at hall
      rw [textsOf, List.filterMap_cons, htext]
      exact hall
    | some text =>
      obtain rfl : m = .text text := by
        cases m with
        | text t => exact congrArg _ (Option.some.inj htext)
        | _ => cases htext
      obtain ⟨hstate, hframes⟩ := hr.receive_text ho hx hsize
      obtain ⟨ho', hr'⟩ := ho.receive hx [.text text]
      have hrest : Agrees x script (s.step t (.receive x.socket [.text text])).1
          (converse x (textsOf script) (s.receive x [.text text]).1.hub
            (s.receive x [.text text]).1.sessions) := by
        rw [hstep]
        by_cases hstill : x ∈ (s.receive x [.text text]).1.sessions
        · apply ih ho' hr' hstill
          rw [hstate]
          exact hlater
        · rw [converse_of_isCut (ho'.forgotten hr' hin hstill).queue_closed]
          exact ho'.agrees_of_ended hr' hin hstill script
      have hall := hrest.cons
      have hopen : isCut s.hub x = false := hr.opened x hx
      rw [hheard, hstep, hframes, hstate] at hall
      have htexts : textsOf ((t, .text text) :: script) = text :: textsOf script := rfl
      rw [htexts, converse, if_neg (Bool.eq_false_iff.mp hopen)]
      exact hall

end Agree

section Running

variable {xs : List Session} {s : Server}

/-- To ask only about the sessions that are running is to ask nothing of the others. -/
theorem Orderly.restrict (ho : Orderly xs s) : Orderly s.sessions s where
  tidy := ho.tidy
  namesTell := ho.namesTell
  known := ho.attached
  named := fun x hx => ho.named x (ho.running.subset hx)
  handles_nodup := ho.handles_nodup.sublist (ho.running.map _)
  sockets_nodup := ho.sockets_nodup.sublist (ho.running.map _)
  numbered := fun x hx => ho.numbered x (ho.running.subset hx)
  running := .refl _
  held := ho.held
  ended := fun _ hx hout => absurd hx hout

/-- One action further, whatever it is. -/
theorem Orderly.step_running (ho : Orderly s.sessions s) (t : Moment) (a : Action) :
    Orderly (s.step t a).1.sessions (s.step t a).1 ∧ (s.step t a).1.AtRest := by
  by_cases hasked : ∃ op, a = .hub op
  · obtain ⟨op, rfl⟩ := hasked
    have hdone : Orderly s.sessions { s with hub := (s.hub.perform op).1 } :=
      ho.keep op rfl rfl rfl fun _ hx hout => absurd hx hout
    obtain ⟨ho', hr'⟩ := hdone.settle
    exact ⟨ho'.restrict, hr'⟩
  · obtain ⟨ho', hr'⟩ := ho.step t fun op heq => absurd ⟨op, heq⟩ hasked
    exact ⟨ho'.restrict, hr'⟩

theorem Orderly.run_running (ho : Orderly s.sessions s) (hr : s.AtRest)
    (actions : List (Moment × Action)) :
    Orderly (s.run actions).sessions (s.run actions) ∧ (s.run actions).AtRest := by
  induction actions generalizing s with
  | nil => exact ⟨ho, hr⟩
  | cons first actions ih =>
    obtain ⟨ho', hr'⟩ := ho.step_running first.1 first.2
    exact ih ho' hr'

theorem orderly_new (config : Config) : Orderly (new config).sessions (new config) := by
  refine ⟨Hub.tidy_new _, Hub.namesTell_new _, ?_, ?_, .nil, .nil, ?_, .refl _, ?_, ?_⟩
  all_goals simp [new]

end Running

section Settings

theorem config_settle (s : Server) : (settle s).1.config = s.config := by
  induction s using settle.induct with
  | case1 s flushed hnone => rw [(settle_of_none hnone).1]; rfl
  | case2 s flushed x hsome _ _ _ ih => rw [(settle_of_some hsome).1]; exact ih

theorem config_read (x : Session) (ms : List Message) (s : Server) :
    (read x ms s).1.config = s.config := by
  fun_induction read x ms s with
  | case1 | case2 | case4 => rfl
  | case3 ms s text _ ih => exact ih
  | case5 m ms s _ _ _ ih => exact ih

theorem config_receive (x : Session) (ms : List Message) (s : Server) :
    (s.receive x ms).1.config = s.config := by
  rw [← config_read x ms s]
  simp only [receive]
  split
  next => exact (config_settle _).trans (config_settle _)
  next => exact config_settle _

theorem config_openSocket (t : Moment) (r : Http.Request) (s : Server) :
    (s.openSocket t r).1.config = s.config := by
  obtain ⟨m, reply, hreply⟩ := exists_reply t r s
  simp only [openSocket, hreply]
  split
  next user _ =>
    rw [startSession]
    split
    next => rfl
    next => rfl
  next => rfl

/-- The settings are those that the server started with. -/
theorem config_run (s : Server) (actions : List (Moment × Action)) :
    (s.run actions).config = s.config := by
  have hstep (t : Moment) (a : Action) (s : Server) : (s.step t a).1.config = s.config := by
    cases a with
    | request r =>
      obtain ⟨m, hm⟩ := answer_eq_with_metrics t false r s
      simp only [step, rest, config_settle, hm]
    | openSocket r =>
      simp only [step, rest, config_settle]
      exact config_openSocket t r s
    | receive socket ms =>
      simp only [step]
      cases s.session? socket with
      | none => exact config_settle s
      | some x => exact config_receive x ms s
    | setReady | hub => simp only [step, rest, config_settle]
  induction actions generalizing s with
  | nil => rfl
  | cons first actions ih => exact (ih _).trans (hstep first.1 first.2 s)

end Settings

/-- A session comes to no more than handing its texts to the hub, for its own connection and in
their order.  Whatever has happened to the server: messages that come one at a time over the socket
of a session that is running, each small enough and none the end of the session, leave the hub as
its texts leave it, and everybody gets the same frames in the same order.  Each text that is handed
over is counted once, under the one of eleven names that is its own, and no other is. -/
theorem session_hands_its_texts_to_the_hub (config : Config) (actions : List (Moment × Action)) :
    let s := (new config).run actions
    (∀ x ∈ s.sessions, ∀ script : List (Moment × Message),
      (∀ e ∈ script, e.2 ≠ .close ∧ e.2.size ≤ sizeLimit config) →
        Agrees x script s (converse x (textsOf script) s.hub s.sessions)) ∧
      (∀ text, Named text) ∧ commandLabels.length = 11 ∧
      Tallied ((new config).heard actions) s.metrics.commands ∧ s.metrics.commands.length ≤ 11 := by
  intro s
  obtain ⟨ho, hr⟩ := (orderly_new config).run_running (atRest_new config) actions
  have hconfig : s.config = config := config_run (new config) actions
  have htallied := tallied_run config actions
  refine ⟨fun x hx script hscript => ?_, named, rfl, htallied, htallied.length_le⟩
  apply ho.agrees hr hx
  rwa [hconfig]

/-- Ann sends a ping, which is counted as one, some bytes and a text that cannot be read. -/
theorem ann_is_heard :
    let ann : Claims := ⟨"ann", "Ann", false, 4102444800, 1700000000⟩
    let t : Moment := ⟨0, 0, 0⟩
    let config : Config := { Config.default with secret := "secret" }
    let r : Http.Request := ⟨"GET", ⟨"/ws", some ("token=" ++ Token.sign "secret" ann)⟩,
      [⟨"Connection", "Upgrade"⟩, ⟨"Upgrade", "websocket"⟩, ⟨"Sec-WebSocket-Key", "key"⟩,
        ⟨"Sec-WebSocket-Version", "13"⟩]⟩
    let opening : List (Moment × Action) := [(t, .openSocket r)]
    let ping := "\x7b\"type\":\"ping\"\x7d"
    let script : List (Moment × Message) := [(t, .text ping), (t, .binary 3), (t, .text "ping")]
    ∃ x ∈ ((new config).run opening).sessions, Agrees x script ((new config).run opening)
        (converse x [ping, "ping"] ((new config).run opening).hub
          ((new config).run opening).sessions) ∧
      commandLabel ping = "ping" ∧ commandLabel "ping" = "invalid" := by
  intro ann t config r opening ping script
  have heligible : (new config).Eligible t
      { r with headers := r.headers.map Http.Header.trimmed } "ann" :=
    eligible_of_sign (by decide) (by decide) (by decide +kernel) (by decide) (by decide) (by decide)
      (Nat.zero_le _)
  let x : Session := ⟨0, 0, .fresh 0, "ann"⟩
  have hbegins : (new config).begins t (.openSocket r) = some x :=
    begins_of_eligible rfl heligible (by decide +kernel) (by decide)
  have hx : x ∈ ((new config).run opening).sessions := by
    rw [run_singleton]
    exact (atRest_new config).mem_sessions_of_begins (attached_new config) hbegins
  have hscript : ∀ e ∈ script, e.2 ≠ .close ∧ e.2.size ≤ sizeLimit config := by decide +kernel
  have hagrees := (session_hands_its_texts_to_the_hub config opening).1 x hx script hscript
  exact ⟨x, hx, hagrees, by decide +kernel, by decide +kernel⟩

end Server

end ChatHub
