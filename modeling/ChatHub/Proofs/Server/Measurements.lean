import ChatHub.Proofs.Command.Decoding
import ChatHub.Proofs.Metrics.Records
import ChatHub.Proofs.Server.Endings
import ChatHub.Proofs.Server.Gate
/-!
What a server measures: each request once, each refusal under its name, and each text that a session
hands to the hub under the name of its command.
-/

namespace ChatHub

namespace Server

open Metrics (Record Registry)
open Metrics.Registry (record)

/-- The texts that a session reads and hands to the hub. -/
def readTexts (x : Session) : List Message → Server → List String
  | [], _ => []
  | m :: ms, s =>
      if (s.queue x).closed || sizeLimit s.config < m.size then []
      else
        match m with
        | .text t => t :: readTexts x ms (s.handleText x t)
        | .close => []
        | _ => readTexts x ms s

/-- The texts that sessions hand to the hub because of an action. -/
def heardIn (a : Action) (s : Server) : List String :=
  match a with
  | .receive socket ms => (s.session? socket).elim [] fun x => readTexts x ms s
  | _ => []

/-- All texts that sessions hand to the hub in a history of the server. -/
def heard : Server → List (Moment × Action) → List String
  | _, [] => []
  | s, (t, a) :: actions => s.heardIn a ++ (s.step t a).1.heard actions

/-- Counts texts, each under its name. -/
def countTexts (texts : List String) (m : Metrics.Registry) : Metrics.Registry :=
  texts.foldl (fun m text => m.recordCommand (commandLabel text)) m

section Names

open Command (Envelope Drafts Reading dataTags)

/-- All names under which texts are counted. -/
def commandLabels : List String := "invalid" :: "unknown" :: "ping" :: dataTags

/-- The name under which a text is counted is its tag, if that is one of a command; all other texts
that can be read have one name together, and so have those that cannot. -/
structure Named (text : String) : Prop where
  known : commandLabel text ∈ commandLabels
  invalid : ∀ e, Command.decode text = .error e → commandLabel text = "invalid"
  tag : ∀ c, Command.decode text = .ok c →
    ∃ tag data, Envelope Json.Readable text.toList tag data ∧
      commandLabel text = if tag ∈ "ping" :: dataTags then tag else "unknown"

theorem commandLabel_of_drafts {text : String} {v : Json.Raw} {tag : String}
    {required : List (String × String)} {c : Command}
    (hv : Drafts Json.Readable v tag required c) (hdecode : Command.decode text = .ok c) :
    commandLabel text = tag := by
  rw [commandLabel, hdecode]
  cases hv with
  | _ => rfl

theorem named (text : String) : Named text := by
  have hreading := Command.reading_decode text
  have hinvalid : ∀ e, Command.decode text = .error e → commandLabel text = "invalid" := by
    intro e hdecode
    rw [commandLabel, hdecode]
  have htag : ∀ c, Command.decode text = .ok c →
      ∃ tag data, Envelope Json.Readable text.toList tag data ∧
        commandLabel text = if tag ∈ "ping" :: dataTags then tag else "unknown" := by
    intro c hdecode
    have hread := hdecode ▸ hreading
    cases hread with
    | ping h => exact ⟨_, _, h, by rw [commandLabel, hdecode]; rfl⟩
    | unknown h hout => exact ⟨_, _, h, by rw [commandLabel, hdecode, if_neg hout]⟩
    | complete h hv _ =>
      have hin := List.mem_cons_of_mem "ping" hv.mem_dataTags
      exact ⟨_, _, h, by rw [commandLabel_of_drafts hv hdecode, if_pos hin]⟩
  refine ⟨?_, hinvalid, htag⟩
  cases hdecode : Command.decode text with
  | error e =>
    rw [hinvalid e hdecode]
    decide
  | ok c =>
    obtain ⟨tag, _, _, heq⟩ := htag c hdecode
    rw [heq]
    split
    next hin => exact List.mem_cons_of_mem _ (List.mem_cons_of_mem _ hin)
    next => decide

end Names

section Count

theorem countTexts_append (texts texts' : List String) (m : Metrics.Registry) :
    countTexts (texts ++ texts') m = countTexts texts' (countTexts texts m) :=
  List.foldl_append

theorem metrics_settle (s : Server) : (settle s).1.metrics = s.metrics := by
  induction s using settle.induct with
  | case1 s flushed hnone => rw [(settle_of_none hnone).1]; rfl
  | case2 s flushed x hsome _ _ _ ih => rw [(settle_of_some hsome).1]; exact ih

/-- A session counts the texts that it hands to the hub, and measures nothing else. -/
theorem metrics_read (x : Session) (ms : List Message) (s : Server) :
    (read x ms s).1.metrics = countTexts (readTexts x ms s) s.metrics := by
  fun_induction readTexts x ms s with
  | case1 => rfl
  | case2 m ms s hend =>
    simp only [read, hend, if_true]
    rfl
  | case3 ms s text hend ih =>
    simp only [read, hend, Bool.false_eq_true, if_false]
    exact ih
  | case4 ms s hend =>
    simp only [read, hend, Bool.false_eq_true, if_false]
    rfl
  | case5 m ms s hend htext hclose ih =>
    simp only [read, hend, Bool.false_eq_true, if_false]
    exact ih

theorem metrics_receive (x : Session) (ms : List Message) (s : Server) :
    (s.receive x ms).1.metrics = countTexts (readTexts x ms s) s.metrics := by
  rw [← metrics_read]
  simp only [receive]
  split
  next => exact (metrics_settle _).trans (metrics_settle _)
  next => exact metrics_settle _

theorem metrics_step_receive (t : Moment) (socket : Nat) (ms : List Message) (s : Server) :
    (s.step t (.receive socket ms)).1.metrics =
      countTexts (s.heardIn (.receive socket ms)) s.metrics := by
  simp only [step, heardIn]
  cases s.session? socket with
  | none => exact metrics_settle s
  | some x => exact metrics_receive x ms s

end Count

/-- What a server records about such requests, and about everything else.  The names of commands and
of refusals are its own. -/
inductive Recordable (asked : Http.Request → Prop) : Record → Prop where
  | request {r : Http.Request} (hr : asked r) (status : Nat) (seconds : Float) :
      Recordable asked (.request r.method r.target.path status seconds)
  | command (text : String) : Recordable asked (.command (commandLabel text))
  | rejection {refusal : Refusal} {reason : String} (hreason : refusal.reason? = some reason) :
      Recordable asked (.rejection reason)
  | session : Recordable asked .session
  | arrival : Recordable asked .arrival
  | departure : Recordable asked .departure
  | look (stats : Hub.Stats) : Recordable asked (.look stats)

/-- The request that an action hands in, as it arrives. -/
def Action.request? : Action → Option Http.Request
  | .request r => some r
  | .openSocket r => some r.arriving
  | _ => none

/-- All requests of a history. -/
def asked (actions : List (Moment × Action)) : List Http.Request :=
  actions.filterMap fun e => e.2.request?

/-- The records are those of the requests, of the texts and of what comes with them. -/
structure Tells (es : List Record) (rs : List Http.Request) (texts : List String) : Prop where
  recordable : ∀ e ∈ es, Recordable (· ∈ rs) e
  requests : ∀ r ∈ rs, ∃ status seconds, .request r.method r.target.path status seconds ∈ es
  commands : es.filterMap Record.command? = texts.map commandLabel

/-- The second registry is the first with such records. -/
def Measures (rs : List Http.Request) (texts : List String) (m m' : Registry) : Prop :=
  ∃ es : List Record, Tells es rs texts ∧ m' = es.foldl record m

section History

variable {rs rs' : List Http.Request} {texts texts' : List String} {es es' : List Record}
  {m m' m'' : Registry} (t : Moment) (s : Server)

theorem Recordable.mono {p q : Http.Request → Prop} {e : Record} (he : Recordable p e)
    (hpq : ∀ r, p r → q r) : Recordable q e := by
  cases he with
  | request hr status seconds => exact .request (hpq _ hr) status seconds
  | command text => exact .command text
  | rejection hreason => exact .rejection hreason
  | session => exact .session
  | arrival => exact .arrival
  | departure => exact .departure
  | look stats => exact .look stats

theorem Tells.append (h : Tells es rs texts) (h' : Tells es' rs' texts') :
    Tells (es ++ es') (rs ++ rs') (texts ++ texts') := by
  constructor
  case recordable =>
    refine List.forall_mem_append.mpr ⟨fun e he => ?_, fun e he => ?_⟩
    · exact (h.recordable e he).mono fun r hr => List.mem_append_left rs' hr
    · exact (h'.recordable e he).mono fun r hr => List.mem_append_right rs hr
  case requests =>
    refine List.forall_mem_append.mpr ⟨fun r hr => ?_, fun r hr => ?_⟩
    · obtain ⟨status, seconds, hin⟩ := h.requests r hr
      exact ⟨status, seconds, List.mem_append_left es' hin⟩
    · obtain ⟨status, seconds, hin⟩ := h'.requests r hr
      exact ⟨status, seconds, List.mem_append_right es hin⟩
  case commands => rw [List.filterMap_append, h.commands, h'.commands, List.map_append]

theorem measures_refl (m : Registry) : Measures [] [] m m := ⟨[], ⟨nofun, nofun, rfl⟩, rfl⟩

theorem Measures.append (h : Measures rs texts m m') (h' : Measures rs' texts' m' m'') :
    Measures (rs ++ rs') (texts ++ texts') m m'' := by
  obtain ⟨es, htells, rfl⟩ := h
  obtain ⟨es', htells', rfl⟩ := h'
  exact ⟨es ++ es', htells.append htells', List.foldl_append.symm⟩

theorem measures_record {e : Record} (he : Recordable (· ∈ []) e) (hcommand : e.command? = none) :
    Measures [] [] m (record m e) := by
  refine ⟨[e], ⟨List.forall_mem_singleton.mpr he, nofun, ?_⟩, rfl⟩
  rw [List.filterMap_cons_none hcommand]
  rfl

theorem measures_request (r : Http.Request) (status : Nat) (seconds : Float) :
    Measures [r] [] m (record m (.request r.method r.target.path status seconds)) := by
  refine ⟨[.request r.method r.target.path status seconds], ⟨?_, ?_, rfl⟩, rfl⟩
  · exact List.forall_mem_singleton.mpr (.request (List.mem_singleton_self r) status seconds)
  · exact List.forall_mem_singleton.mpr ⟨status, seconds, List.mem_singleton_self _⟩

theorem measures_answerAt (canUpgrade : Bool) (r : Http.Request) (place : Route) :
    Measures [] [] s.metrics (s.answerAt t canUpgrade r place).1.metrics := by
  cases place with
  | socket =>
    simp only [answerAt, answerUpgrade]
    split
    next => exact measures_refl s.metrics
    next refusal _ =>
      cases hreason : refusal.reason? with
      | none => exact measures_refl s.metrics
      | some reason => exact measures_record (.rejection hreason) rfl
  | metrics => exact measures_record (.look s.hub.stats) rfl
  | voiceRooms | stats | health | liveness | readiness => exact measures_refl s.metrics

theorem measures_route (canUpgrade : Bool) (r : Http.Request) :
    Measures [] [] s.metrics (s.route t canUpgrade r).1.metrics := by
  rw [route]
  split
  next => exact measures_refl s.metrics
  next place _ =>
    split
    next => exact measures_answerAt t s canUpgrade r place
    next =>
      split
      next => exact measures_answerAt t s canUpgrade r place
      next => exact measures_refl s.metrics

theorem measures_answer (canUpgrade : Bool) (r : Http.Request) :
    Measures [r] [] s.metrics (s.answer t canUpgrade r).1.metrics := by
  have harrived : Measures [] [] s.metrics (record s.metrics .arrival) :=
    measures_record .arrival rfl
  have hrouted := measures_route t { s with metrics := record s.metrics .arrival } canUpgrade r
  exact ((harrived.append hrouted).append (measures_record .departure rfl)).append
    (measures_request r _ t.took)

theorem measures_openSocket (r : Http.Request) :
    Measures [r.arriving] [] s.metrics (s.openSocket t r).1.metrics := by
  have hanswer : Measures [r.arriving] [] s.metrics
      (s.answer t true { r with headers := r.headers.map Http.Header.trimmed }).1.metrics :=
    measures_answer t s true r.arriving
  obtain ⟨m, reply, hreply⟩ := exists_reply t r s
  rw [hreply] at hanswer
  simp only [openSocket, hreply]
  split
  next user _ =>
    rw [startSession]
    split
    next => exact hanswer.append (measures_record .session rfl)
    next => exact hanswer
  next => exact hanswer

theorem measures_countTexts (texts : List String) (m : Registry) :
    Measures [] texts m (countTexts texts m) := by
  induction texts generalizing m with
  | nil => exact measures_refl m
  | cons text texts ih =>
    have hfirst : Measures [] [text] m (record m (.command (commandLabel text))) :=
      ⟨[.command (commandLabel text)],
        ⟨List.forall_mem_singleton.mpr (.command text), nofun, rfl⟩, rfl⟩
    exact hfirst.append (ih _)

theorem measures_step (a : Action) :
    Measures a.request?.toList (s.heardIn a) s.metrics (s.step t a).1.metrics := by
  cases a with
  | receive socket ms =>
    rw [metrics_step_receive]
    exact measures_countTexts _ _
  | request r =>
    simp only [step, rest, metrics_settle]
    exact measures_answer t s false r
  | openSocket r =>
    simp only [step, rest, metrics_settle]
    exact measures_openSocket t s r
  | setReady | hub =>
    simp only [step, rest, metrics_settle]
    exact measures_refl s.metrics

/-- All that a server measures is a row of records, one for each request and one for each text that
a session has handed to the hub among them. -/
theorem measures_run (actions : List (Moment × Action)) :
    Measures (asked actions) (s.heard actions) s.metrics (s.run actions).metrics := by
  induction actions generalizing s with
  | nil => exact measures_refl s.metrics
  | cons first actions ih =>
    have hasked : asked (first :: actions) = first.2.request?.toList ++ asked actions := by
      rw [asked, List.filterMap_cons]
      cases first.2.request? <;> rfl
    rw [hasked]
    exact (measures_step first.1 s first.2).append (ih (s.step first.1 first.2).1)

end History

section Tally

open Metrics (Family)

/-- The counters tell how many of the texts there were of each name.  There are no other names, and
together they tell how many texts there were. -/
structure Tallied (texts : List String) (fam : Family String Nat) : Prop where
  count : ∀ name, Family.total name fam = (texts.map commandLabel).count name
  sum : (fam.map Prod.snd).sum = texts.length
  nodup : (fam.map Prod.fst).Nodup
  known : fam.map Prod.fst ⊆ commandLabels

variable {texts : List String} {fam : Family String Nat}

theorem Tallied.length_le (h : Tallied texts fam) : fam.length ≤ commandLabels.length := by
  have hle := (h.nodup.subperm h.known).length_le
  rwa [List.length_map] at hle

/-- The counters of a new server tell of the texts that its sessions have handed to the hub. -/
theorem tallied_run (config : Config) (actions : List (Moment × Action)) :
    Tallied ((new config).heard actions) ((new config).run actions).metrics.commands := by
  obtain ⟨es, htells, hm⟩ := measures_run (new config) actions
  have hcommands := (Metrics.gathered es (new config).metrics).commands
  rw [← hm, htells.commands] at hcommands
  rw [hcommands]
  constructor
  case count =>
    intro name
    have hcount := Family.getD_get?_collect_count id
      (((new config).heard actions).map commandLabel) name
    rwa [List.map_id] at hcount
  case sum =>
    rw [Family.sum_collect, List.length_map]
    exact Nat.zero_add _
  case nodup => exact Family.nodup_collect List.nodup_nil
  case known =>
    have hknown : ∀ name ∈ ((new config).heard actions).map commandLabel, name ∈ commandLabels :=
      List.forall_mem_map.mpr fun text _ => (named text).known
    exact List.forall_mem_map.mpr (Family.forall_mem_collect.mpr hknown)

end Tally

end Server

end ChatHub
