import ChatHub.Proofs.Hub.Farewell
import ChatHub.Proofs.Hub.Refusal
/-!
What an operation tells of those who leave.  Whatever is asked of a hub, whoever is there and stays
is told of each connection that leaves a room on the way, once with everyone and once more with the
room.
-/

namespace ChatHub.Hub

section Names

/-- A name that nobody chose for a connection tells its number. -/
def NamesTell (h : Hub) : Prop :=
  ∀ (i : Nat) (p : Peer) (n : Nat), h.peer? i = some p → p.id = .fresh n → n = i

variable {h : Hub}

theorem NamesTell.move (hn : h.NamesTell) (m : Move) : (h.move m).NamesTell := by
  intro i p n hp hid
  rcases peer?_move hp with hold | ⟨_, hfresh | ⟨name, hnamed⟩⟩
  · exact hn i p n hold hid
  · exact (ConnectionId.fresh.inj (hfresh.symm.trans hid)).symm
  · cases hnamed.symm.trans hid

theorem NamesTell.run (hn : h.NamesTell) (ops : List Operation) : (h.run ops).NamesTell := by
  have hmoved (ms : List Move) {g : Hub} (hg : g.NamesTell) : (g.moved ms).NamesTell := by
    induction ms generalizing g with
    | nil => exact hg
    | cons m ms ih => exact ih (hg.move m)
  exact (Trail.run h ops).moved_eq ▸ hmoved _ hn

theorem namesTell_new (limits : Limits) : (new limits).NamesTell := by
  intro i p n hp
  simp [new, peer?] at hp

/-- So nobody else can go by it. -/
theorem NamesTell.ownName (hn : h.NamesTell) {p : Peer} (hp : h.Knows p)
    (hid : p.id = .fresh p.handle) : h.OwnName p := by
  intro q hq heq
  exact hq.eq_of_handle hp (hn q.handle q p.handle hq (heq.trans hid)).symm

end Names

/-- Whoever has been taken down comes into no room again. -/
theorem TakenDown.barred {h : Hub} {p : Peer} (hd : h.TakenDown p) (ht : h.Tidy) (hp : h.Knows p) :
    h.Barred p := by
  obtain ⟨c, hc, _⟩ := Option.map_eq_some_iff.mp hp
  have hclosed := hd.queue_closed
  rw [connection, hc, Option.getD_some] at hclosed
  refine ⟨⟨c, hc, hclosed⟩, fun r hr hin => hd.outside r.channel ?_⟩
  rw [Rooms.members_of_mem ht.rooms.channels_nodup hr]
  exact hin

/-- What has come of an operation for `c`, which goes by a name of its own. -/
structure Heard (P : Prop) (c : Peer) (channel : ChannelId) (user : UserId) (taken : Occupancy)
    (h h' : Hub) : Prop where
  stays : c ∈ h.registered → c ∈ h'.registered ∨ h'.TakenDown c
  told : P → (h'.connection c).isOpen = true →
    ∃ gone, Leavers h channel user taken h'.rooms.occupancy gone ∧
      (gained h h' c).count (leftFrame channel user) = gone.card * h'.copies c channel

/-- The hub when whoever joins a room by the operation is in it, and nothing has been said yet. -/
def admitting (h : Hub) : Operation → Hub
  | .join i channel | .enterRoom i channel =>
      (h.peer? i).elim h fun p => h.move (.enter p channel)
  | .handle i command =>
      (h.peer? i).elim h fun p => if (h.connection p).isOpen then h.entering p command else h
  | .handleText i text =>
      match Command.decode text with
      | .ok command =>
          (h.peer? i).elim h fun p => if (h.connection p).isOpen then h.entering p command else h
      | .error _ => h
  | _ => h

/-- Takes somebody out of rooms without a word to anyone. -/
def Operation.isSilent : Operation → Bool
  | .exitRoom .. | .exitRooms _ => true
  | _ => false

/-- Whatever the operation tells of the room and the user is so: it does not make anybody leave
without a word, and is not itself the news that somebody has left. -/
structure Operation.TellsTruly (op : Operation) (channel : ChannelId) (user : UserId) : Prop where
  aloud : op.isSilent = false
  genuine : op.event? ≠ some (.left channel user)

namespace Heard

variable {P : Prop} {c : Peer} {channel : ChannelId} {user : UserId} {taken : Occupancy}
  {h₀ h h' : Hub}

theorem of_hears (hw : Hears P c channel user taken 0 h₀ h') (htable : h₀.table = h.table)
    (hregistered : h₀.registered = h.registered) : Heard P c channel user taken h h' where
  stays := by
    intro hc
    rcases hw.stays with ⟨hset, _⟩ | hdown
    · exact Or.inl (hset (hregistered ▸ hc))
    · exact Or.inr hdown
  told := by
    intro hP hopen
    obtain ⟨hset, hroom⟩ := hw.mem_iff hopen
    have hsame : gained h h' c = gained h₀ h' c := by simp only [gained, connection, htable]
    have hcopies : h'.copies c channel = h₀.copies c channel := by simp only [copies, hset, hroom]
    obtain ⟨gone, hl, htold⟩ := hw.told hP hopen
    refine ⟨gone, hl.of_table_eq htable, ?_⟩
    rw [hsame, hcopies]
    exact htold

/-- Nothing is said, and nobody goes. -/
theorem of_quiet (htaken : taken = h'.rooms.occupancy)
    (hstays : c ∈ h.registered → c ∈ h'.registered)
    (hquiet : leftFrame channel user ∉ gained h h' c) : Heard P c channel user taken h h' where
  stays := fun hc => Or.inl (hstays hc)
  told := by
    intro _ _
    refine ⟨∅, .none (Finset.subset_of_eq htaken), ?_⟩
    rw [List.count_eq_zero.mpr hquiet, Finset.card_empty, Nat.zero_mul]

theorem of_gained_eq_nil (htaken : taken = h'.rooms.occupancy)
    (hstays : c ∈ h.registered → c ∈ h'.registered) (hnone : gained h h' c = []) :
    Heard P c channel user taken h h' :=
  of_quiet htaken hstays (hnone ▸ List.not_mem_nil)

theorem refl : Heard P c channel user h.rooms.occupancy h h :=
  of_gained_eq_nil rfl id (gained_eq_nil_of_le (Nat.le_refl _))

/-- A step that puts other frames into the queues, if any. -/
theorem of_steps {reading : Bool}
    (hs : Steps reading (fun _ f => f ≠ leftFrame channel user) h h') (hrooms : h'.rooms = h.rooms)
    (hstays : c ∈ h.registered → c ∈ h'.registered) :
    Heard P c channel user h.rooms.occupancy h h' :=
  of_quiet (congrArg Rooms.occupancy hrooms.symm) hstays fun hin => hs.new c _ hin rfl

section Peer

variable (ht : h.Tidy) {i : Nat} {f : Peer → Hub × Outcome}

include ht

/-- An operation on a connection of the table, if there is one of that number. -/
theorem withPeer
    (hf : ∀ p, h.Knows p → Heard P c channel user h.rooms.occupancy h (f p).1) :
    Heard P c channel user h.rooms.occupancy h (h.withPeer i f).1 := by
  rw [Hub.withPeer]
  split
  next p hp => exact hf p (ht.knows_of_peer? hp)
  next => exact refl

/-- The same of one that may let the connection into a room. -/
theorem withPeer_admitting {g : Peer → Hub}
    (hf : ∀ p, h.Knows p → Heard P c channel user (g p).rooms.occupancy h (f p).1) :
    Heard P c channel user ((h.peer? i).elim h g).rooms.occupancy h (h.withPeer i f).1 := by
  rw [Hub.withPeer]
  cases hp : h.peer? i with
  | none => exact refl
  | some p => exact hf p (ht.knows_of_peer? hp)

end Peer

end Heard

section Perform

variable {P : Prop} {c : Peer} {channel : ChannelId} {user : UserId} {h : Hub} (ht : h.Tidy)
  (hc : h.Knows c) (hown : h.OwnName c)

theorem joined_ne_left (room channel : ChannelId) (who user : UserId) :
    Event.joined room who ≠ .left channel user := by
  simp [Event.joined, Event.left]

theorem Heard.of_update {p : Peer} {f : Connection → Connection}
    (hf : ∀ c, (f c).queue.waiting = c.queue.waiting) :
    Heard P c channel user h.rooms.occupancy h (h.update p f) :=
  have hnone : gained h (h.update p f) c = [] :=
    gained_eq_nil_of_le (Nat.le_of_eq (congrArg List.length (waiting_update p c f h hf)))
  of_gained_eq_nil rfl id hnone

/-- A frame that is sent to somebody's queue is no event. -/
theorem Heard.of_send {p : Peer} (hp : h.Knows p) (hc : h.Knows c) {text : String} {q : Queue}
    (hsend : (h.connection p).queue.send (.text text) = .ok q) :
    Heard P c channel user h.rooms.occupancy h (h.update p fun c => { c with queue := q }) := by
  have hwaiting : q.waiting = (h.connection p).queue.waiting ++ [.text text] := by
    simp only [Queue.send] at hsend
    split at hsend
    next => cases hsend
    next =>
      split at hsend
      next => cases hsend
      next =>
        cases hsend
        rfl
  suffices hquiet : leftFrame channel user ∉
      gained h (h.update p fun c => { c with queue := q }) c from of_quiet rfl id hquiet
  by_cases heq : c = p
  · subst heq
    have hlater : ((h.update c fun c => { c with queue := q }).connection c).queue.waiting =
        (h.connection c).queue.waiting ++ [.text text] := by
      rw [connection_update_self c _ h hc, hwaiting]
    rw [gained_eq_of_append hlater]
    simp [leftFrame]
  · have hne : c.handle ≠ p.handle := fun hhandle => heq (hc.eq_of_handle hp hhandle)
    rw [gained, connection_update_of_ne p c _ h hne, List.drop_length]
    exact List.not_mem_nil

include ht in
theorem Hears.here : Hears P c channel user h.rooms.occupancy 0 h h := by
  refine .start ht fun _ => ⟨∅, .none (Finset.Subset.refl _), ?_⟩
  rw [Finset.card_empty, Nat.zero_mul]

/-- Who leaves a room takes its name away from there. -/
theorem Tidy.leavers_leave (ht : h.Tidy) {p : Peer} (hp : h.Knows p) {room : ChannelId}
    (hin : h.rooms.contains room p.id = true) :
    ∃ gone, Leavers h channel user h.rooms.occupancy (h.rooms.leave room p.id).1.occupancy gone ∧
      gone.card = if room = channel ∧ p.user = user then 1 else 0 := by
  have hvalid : (h.rooms.leave room p.id).1.Valid := ht.rooms.leave room p.id
  have hstart : Leavers h channel user h.rooms.occupancy h.rooms.occupancy ∅ :=
    .none (Finset.Subset.refl _)
  have hthere : room = channel → ∃ q, (channel, q) ∈ h.rooms.occupancy ∧ q.id = p.id := by
    rintro rfl
    obtain ⟨m, hm, hid⟩ := Rooms.contains_iff_exists.mp hin
    exact ⟨m, ht.rooms.mem_occupancy.mpr hm, hid⟩
  have hafter (q : Peer) : (channel, q) ∈ (h.rooms.leave room p.id).1.occupancy ↔
      (channel, q) ∈ h.rooms.occupancy ∧ ¬(room = channel ∧ q.id = p.id) := by
    rw [hvalid.mem_occupancy, ht.rooms.mem_occupancy, Rooms.mem_members_leave ht.rooms, not_and_or,
      ne_comm]
  obtain ⟨gone, hl, hcard⟩ := hstart.lose (Finset.Subset.refl _) hp hthere hafter
  rw [Finset.card_empty, Nat.zero_add] at hcard
  exact ⟨gone, hl, hcard⟩

include ht hc hown

theorem heard_joinRoom {p : Peer} (hp : h.Knows p) (room : ChannelId) :
    Heard P c channel user (h.move (.enter p room)).rooms.occupancy h (h.joinRoom p room).1 := by
  have hentered : (h.move (.enter p room)).Tidy := ht.enter hp room
  have hstart : Hears P c channel user (h.move (.enter p room)).rooms.occupancy 0
      (h.move (.enter p room)) (h.move (.enter p room)) := .here hentered
  suffices hdone : Hears P c channel user (h.move (.enter p room)).rooms.occupancy 0
      (h.move (.enter p room)) (h.joinRoom p room).1 from .of_hears hdone rfl rfl
  cases hjoin : h.rooms.join room p (h.connection p).queue.closed with
  | mk rooms joined =>
    have heq : h.move (.enter p room) = { h with rooms } := by simp only [move, hjoin]
    rw [heq] at hentered hstart ⊢
    cases joined with
    | none =>
      have hsame : rooms = h.rooms := by
        rw [Rooms.join] at hjoin
        split at hjoin
        next => exact (congrArg Prod.fst hjoin).symm
        next => cases hjoin
      subst hsame
      simp only [joinRoom, hjoin]
      exact hstart
    | some users =>
      have hall : ({ h with rooms } : Hub).rooms.occupancy ⊆ rooms.occupancy :=
        Finset.Subset.refl _
      have hsent := hstart.sendTo hentered hc hown hall
        (e := ⟨.voiceRoomState, .roomState ⟨room, users⟩⟩) (by simp [Event.left]) hp
      rw [joinRoom_eq hjoin]
      simp only
      split
      next => exact hsent
      next =>
        have hnews : P → Event.joined room p.user ≠ .left channel user :=
          fun _ => joined_ne_left room channel p.user user
        exact (hsent.broadcastToRoom hentered hc hown hall hnews room (some p.id)).broadcast
          hentered hc hown hall hnews

/-- The one who leaves is out of the room when that is announced. -/
theorem heard_leaveRoom {p : Peer} (hp : h.Knows p) (room : ChannelId) :
    Heard P c channel user h.rooms.occupancy h (h.leaveRoom p room).1 := by
  simp only [leaveRoom]
  split
  next hin =>
    let out : Hub := { h with rooms := (h.rooms.leave room p.id).1 }
    have hvalid : out.rooms.Valid := ht.rooms.leave room p.id
    have hsub {r : ChannelId} {q : Peer} (hq : q ∈ out.rooms.members r) : q ∈ h.rooms.members r :=
      ((Rooms.mem_members_leave ht.rooms).mp hq).1
    have hadvances : Advances (.leave p.handle room) h out :=
      ht.advances_withRooms hvalid fun _ _ => hsub
    have hout : out.Tidy := hadvances.tidy
    have htaken : out.rooms.occupancy ⊆ h.rooms.occupancy := fun s hs =>
      ht.rooms.mem_occupancy.mpr (hsub (hvalid.mem_occupancy.mp hs))
    suffices hdone : Hears P c channel user h.rooms.occupancy 0 out
        (announceLeft deliver p.user room out) from .of_hears hdone rfl rfl
    apply Hears.announceLeft hout (faithful_deliver hout hc hown htaken)
    apply Hears.start hout
    intro _
    obtain ⟨gone, hl, hcard⟩ :
        ∃ gone, Leavers h channel user h.rooms.occupancy out.rooms.occupancy gone ∧ gone.card = _ :=
      ht.leavers_leave hp hin
    refine ⟨gone, hl.of_table_eq rfl, ?_⟩
    rw [hcard, Nat.zero_add]
    split
    next => rw [Nat.one_mul]
    next => rw [Nat.zero_mul]
  next => exact .refl

theorem heard_relaySignal (p : Peer) (kind : SignalKind) (s : Signal) :
    Heard P c channel user h.rooms.occupancy h (h.relaySignal p kind s).1 := by
  have hstart : Hears P c channel user h.rooms.occupancy 0 h h := .here ht
  by_cases hmay : h.MaySignal p s
  · simp only [relaySignal_of_maySignal hmay]
    have hnews : P → signalEvent p kind s ≠ .left channel user := by
      intro _
      simp [signalEvent, Event.left]
    have hsent := hstart.sendToUser ht hc hown (Finset.Subset.refl _) hnews s.target
    exact .of_hears (hsent.count _) rfl rfl
  · simp only [relaySignal_of_not_maySignal hmay]
    exact .of_hears (hstart.count _) rfl rfl

theorem heard_reportMedia (p : Peer) (r : MediaReport) :
    Heard P c channel user h.rooms.occupancy h (h.reportMedia p r) := by
  have hstart : Hears P c channel user h.rooms.occupancy 0 h h := .here ht
  rw [reportMedia]
  split
  next =>
    exact .of_hears (hstart.broadcastToRoom ht hc hown (Finset.Subset.refl _)
      (by simp [Event.left]) r.channel (some p.id)) rfl rfl
  next => exact .refl

theorem heard_handle {p : Peer} (hp : h.Knows p) (command : Command) :
    Heard P c channel user
      (if (h.connection p).isOpen then h.entering p command else h).rooms.occupancy h
      (h.handle p command) := by
  have hstart : Hears P c channel user h.rooms.occupancy 0 h h := .here ht
  have hall : h.rooms.occupancy ⊆ h.rooms.occupancy := Finset.Subset.refl _
  cases hopen : (h.connection p).isOpen with
  | false =>
    simp only [handle, hopen, Bool.false_eq_true, if_false]
    exact .refl
  | true =>
    simp only [handle, hopen, if_true]
    cases command with
    | subscribe room => exact .of_update fun _ => rfl
    | typing room =>
      exact .of_hears (hstart.broadcastWhere ht hc hown hall (by simp [Event.left]) _) rfl rfl
    | voiceJoin room => exact heard_joinRoom ht hc hown hp room
    | voiceLeave room => exact heard_leaveRoom ht hc hown hp room
    | signal kind s => exact heard_relaySignal ht hc hown p kind s
    | mediaState r => exact heard_reportMedia ht hc hown p r
    | ping =>
      have hnews : P → Event.pong ≠ .left channel user := by
        intro _
        simp [Event.left, Event.pong]
      exact .of_hears (hstart.sendTo ht hc hown hall hnews hp) rfl rfl
    | unknown tag => exact .refl

theorem heard_unregister {p : Peer} (hp : h.Knows p) :
    Heard P c channel user h.rooms.occupancy h (h.unregister p).1 :=
  .of_hears (Hears.remove ht (faithful_deliver ht hc hown (Finset.Subset.refl _)) hown
    (Finset.Subset.refl _) hp (Hears.here ht)) rfl rfl

end Perform

/-- What an operation comes to for one who was there before it, whose name is its own. -/
theorem Tidy.heard_perform {h : Hub} (ht : h.Tidy) {c : Peer} (hc : h.Knows c)
    (op : Operation) (hown : (h.perform op).1.OwnName c) (channel : ChannelId) (user : UserId) :
    Heard (op.TellsTruly channel user) c channel user (h.admitting op).rooms.occupancy h
      (h.perform op).1 := by
  have hbefore {q : Peer} (hq : h.Knows q) : (h.perform op).1.Knows q :=
    (Trail.perform h op).peer?_of_some hq
  have hown' : h.OwnName c := fun q hq => hown q (hbefore hq)
  have hall : h.rooms.occupancy ⊆ h.rooms.occupancy := Finset.Subset.refl _
  have hstart : Hears (op.TellsTruly channel user) c channel user h.rooms.occupancy 0 h h :=
    .here ht
  have htold {e : Event} (hop : op.event? = some e) :
      op.TellsTruly channel user → e ≠ .left channel user := by
    rintro hcase rfl
    exact hcase.genuine hop
  cases op with
  | connect new =>
    simp only [Hub.perform]
    split
    next h' p hok =>
      have hn := connected_of_connect hok
      have hafter : (h.perform (.connect new)).1 = h' := by simp only [Hub.perform, hok]
      have hsteps : Steps false (fun _ f => f ≠ leftFrame channel user) h h' :=
        ht.toKeyed.steps_connect hok
      refine .of_steps hsteps hn.rooms fun hin => ?_
      rw [hn.registered, mem_insertPeer]
      refine Or.inr ⟨hin, fun hid => ?_⟩
      have hsame : p = c := (hafter ▸ hown) p hn.knows hid.symm
      exact hn.handle_ne hc (congrArg Peer.handle hsame.symm)
    next => exact .refl
  | create new capacity name =>
    have hsteps : Steps false (fun _ f => f ≠ leftFrame channel user) h
        (h.create new capacity name).1 := ht.toKeyed.steps_create new capacity name
    exact .of_steps hsteps rfl id
  | register i =>
    refine .withPeer ht fun p hp => ?_
    have hsteps : Steps false (fun _ f => f ≠ leftFrame channel user) h (h.register p) :=
      ht.toKeyed.steps_register hp
    refine .of_steps hsteps rfl fun hin => ?_
    by_cases heq : c = p
    · exact mem_insertPeer.mpr (Or.inl heq)
    · exact mem_insertPeer.mpr (Or.inr ⟨hin, fun hid => heq (hown' p hp hid.symm).symm⟩)
  | unregister i => exact .withPeer ht fun p hp => heard_unregister ht hc hown' hp
  | activate i =>
    refine .withPeer ht fun p _ => .of_update (f := Connection.activate) fun c => ?_
    rw [Connection.activate]
    split
    next => rfl
    next => rfl
  | beginClose i =>
    exact .withPeer ht fun p _ => .of_update (f := Connection.beginClose)
      fun c => congrArg Queue.waiting (Connection.queue_beginClose c)
  | closeQueue i =>
    exact .withPeer ht fun p _ => .of_update (f := Connection.closeQueue) fun _ => rfl
  | markClosed i =>
    exact .withPeer ht fun p _ => .of_update (f := Connection.markClosed) fun _ => rfl
  | send i frame =>
    refine .withPeer ht fun p hp => ?_
    split
    next q hsend => exact .of_send hp hc hsend
    next => exact .refl
  | view i room =>
    exact .withPeer ht fun p _ => .of_update (f := Connection.view room) fun _ => rfl
  | take i =>
    refine .withPeer ht fun p hp => ?_
    split
    next f q htake =>
      refine .of_steps (ht.toKeyed.steps_read hp (fun _ => rfl) (fun _ => rfl) ?_) rfl id
      rw [(Queue.eq_cons_of_take htake).1]
      exact Nat.le_succ _
    next => exact .refl
  | abandon i =>
    exact .withPeer ht fun p hp =>
      .of_steps (ht.toKeyed.steps_read hp (fun _ => rfl) (fun _ => rfl) (Nat.zero_le _)) rfl id
  | handle i command =>
    exact .withPeer_admitting ht fun p hp => heard_handle ht hc hown' hp command
  | handleText i text =>
    cases hdecode : Command.decode text with
    | error e =>
      simp only [admitting, hdecode, Hub.perform, handleText]
      exact .withPeer ht fun p _ => .refl
    | ok command =>
      simp only [admitting, hdecode, Hub.perform, handleText]
      exact .withPeer_admitting ht fun p hp => heard_handle ht hc hown' hp command
  | join i room =>
    exact .withPeer_admitting ht fun p hp => heard_joinRoom ht hc hown' hp room
  | leave i room => exact .withPeer ht fun p hp => heard_leaveRoom ht hc hown' hp room
  | relay i kind s => exact .withPeer ht fun p _ => heard_relaySignal ht hc hown' p kind s
  | broadcast e =>
    exact .of_hears (hstart.broadcast ht hc hown' hall (htold rfl)) rfl rfl
  | broadcastToChannel room e =>
    exact .of_hears (hstart.broadcastWhere ht hc hown' hall (htold rfl) _) rfl rfl
  | sendToUser target e =>
    exact .of_hears (hstart.sendToUser ht hc hown' hall (htold rfl) target) rfl rfl
  | broadcastToRoom room e exclude =>
    cases exclude with
    | none =>
      exact .of_hears (hstart.broadcastToRoom ht hc hown' hall (htold rfl) room none) rfl rfl
    | some i =>
      exact .withPeer ht fun p _ => .of_hears
        (hstart.broadcastToRoom ht hc hown' hall (htold rfl) room (some p.id)) rfl rfl
  | sendTo i e =>
    exact .withPeer ht fun p hp =>
      .of_hears (hstart.sendTo ht hc hown' hall (htold rfl) hp) rfl rfl
  | publishMessage message digest =>
    have htext := hstart.broadcastWhere ht hc hown' hall (e := ⟨.messageNew, .raw message⟩)
      (by simp [Event.left]) (Connection.isViewing digest.channel)
    exact .of_hears (htext.broadcast ht hc hown' hall
      (e := ⟨.messageActivity, .activity digest⟩) (by simp [Event.left])) rfl rfl
  | publishEdit room message =>
    exact .of_hears (hstart.broadcastWhere ht hc hown' hall (by simp [Event.left]) _) rfl rfl
  | publishDeletion room message =>
    exact .of_hears (hstart.broadcastWhere ht hc hown' hall (by simp [Event.left]) _) rfl rfl
  | publishReactions room reactions =>
    exact .of_hears (hstart.broadcastWhere ht hc hown' hall (by simp [Event.left]) _) rfl rfl
  | publishServerEvent e =>
    cases hkind : e.kind.isServerWide with
    | false =>
      simp only [Hub.perform, publishServerEvent, hkind, Bool.false_eq_true, if_false]
      exact .refl
    | true =>
      simp only [Hub.perform, publishServerEvent, hkind, if_true]
      exact .of_hears (hstart.broadcast ht hc hown' hall (htold rfl)) rfl rfl
  | enterRoom i room =>
    have hnone (p : Peer) : gained h (h.move (.enter p room)) c = [] :=
      gained_eq_nil_of_le (Nat.le_refl _)
    exact .withPeer_admitting ht fun p _ => .of_gained_eq_nil rfl id (hnone p)
  | exitRoom i room =>
    refine .withPeer ht fun p _ => ⟨Or.inl, fun hcase => ?_⟩
    exact absurd hcase.aloud (by simp [Operation.isSilent])
  | exitRooms i =>
    refine .withPeer ht fun p _ => ⟨Or.inl, fun hcase => ?_⟩
    exact absurd hcase.aloud (by simp [Operation.isSilent])

/-- In the operation `c` hears of the connections `gone` of a user that they have left a room: of
each of them once with everyone, if `c` is in the set, and once with the room, if it is in the
room. -/
structure HearsOf (h : Hub) (op : Operation) (c : Peer) (channel : ChannelId) (user : UserId)
    (gone : Finset Peer) : Prop
    extends Leavers h channel user (h.admitting op).rooms.occupancy
      (h.perform op).1.rooms.occupancy gone where
  count_eq : (gained h (h.perform op).1 c).count (leftFrame channel user) =
    gone.card * (h.perform op).1.copies c channel

/-- The operation takes `x` off the set, and with that out of all rooms.  Whoever stays hears of it
from each room that `x` was in, and from no room is it told of `x` twice. -/
structure TakesOff (h : Hub) (op : Operation) (x : Peer) : Prop where
  registered : x ∈ h.registered
  unregistered : x ∉ (h.perform op).1.registered
  outside : ∀ channel, x ∉ (h.perform op).1.rooms.members channel
  announced : ∀ channel, (channel, x) ∈ (h.admitting op).rooms.occupancy →
    op.event? ≠ some (.left channel x.user) → ∀ c, h.Knows c → (h.perform op).1.OwnName c →
      ((h.perform op).1.connection c).isOpen = true →
        ∃ gone, HearsOf h op c channel x.user gone ∧ x ∈ gone

/-- In the course of the operations `x` is taken off, and after that it is nowhere. -/
def LeavesOnce (x : Peer) (h : Hub) (ops : List Operation) : Prop :=
  ∃ before op after, ops = before ++ op :: after ∧ TakesOff (h.run before) op x ∧
    ∀ later, later <+: after →
      x ∉ (h.run (before ++ op :: later)).registered ∧
        ∀ channel, x ∉ (h.run (before ++ op :: later)).rooms.members channel

/-- Nobody hears that a user has left a room, but of connections that have, unless somebody is made
to leave without a word or the news is handed in. -/
def SpeaksTruly (h : Hub) (ops : List Operation) : Prop :=
  ∀ before op after, ops = before ++ op :: after → ∀ channel user, op.TellsTruly channel user →
    let g := h.run before
    let g' := (g.perform op).1
    ∀ c, g.Knows c → g'.OwnName c → (g'.connection c).isOpen = true →
      ∃ gone, HearsOf g op c channel user gone

section TakesOff

variable {h : Hub} {x : Peer}

/-- Nobody leaves the set without a word. -/
theorem registered_perform_of_isSilent {op : Operation} (hop : op.isSilent = true) :
    (h.perform op).1.registered = h.registered := by
  cases op with
  | exitRoom i channel | exitRooms i =>
    simp only [perform, withPeer]
    split
    next => rfl
    next => rfl
  | _ => cases hop

theorem Tidy.exists_hearsOf (ht : h.Tidy) {op : Operation} {channel : ChannelId} {user : UserId}
    (hop : op.TellsTruly channel user) {c : Peer} (hc : h.Knows c)
    (hown : (h.perform op).1.OwnName c) (hopen : ((h.perform op).1.connection c).isOpen = true) :
    ∃ gone, HearsOf h op c channel user gone := by
  obtain ⟨gone, hl, hcount⟩ := (ht.heard_perform hc op hown channel user).told hop hopen
  exact ⟨gone, hl, hcount⟩

theorem speaksTruly (ht : h.Tidy) (ops : List Operation) : h.SpeaksTruly ops :=
  fun before _ _ _ _ _ hop _ hc hown hopen => (ht.run before).exists_hearsOf hop hc hown hopen

variable (ht : h.Tidy) (hx : h.Knows x)

include ht hx

theorem Tidy.takesOff {op : Operation} (hown : (h.perform op).1.OwnName x)
    (hin : x ∈ h.registered) (hout : x ∉ (h.perform op).1.registered) : TakesOff h op x := by
  have hdown : (h.perform op).1.TakenDown x :=
    ((ht.heard_perform hx op hown "" "").stays hin).resolve_left hout
  refine ⟨hin, hout, hdown.outside, ?_⟩
  intro channel hplace hevent c hc hcown hopen
  have haloud : op.isSilent = false := by
    by_contra hsilent
    rw [Bool.not_eq_false] at hsilent
    rw [registered_perform_of_isSilent hsilent] at hout
    exact hout hin
  obtain ⟨gone, hheard⟩ := ht.exists_hearsOf ⟨haloud, hevent⟩ hc hcown hopen
  refine ⟨gone, hheard, hheard.complete x hx ?_ rfl hplace fun hstill => ?_⟩
  · exact fun q hq => hown q ((Trail.perform h op).peer?_of_some hq)
  · exact hdown.outside channel ((ht.perform op).tidy.rooms.mem_occupancy.mp hstill)

theorem leavesOnce {ops : List Operation} (hnames : ∀ ops, (h.run ops).OwnName x)
    (hops : .register x.handle ∉ ops) (hin : x ∈ h.registered)
    (hout : x ∉ (h.run ops).registered) : LeavesOnce x h ops := by
  induction ops generalizing h with
  | nil => exact absurd hin hout
  | cons op ops ih =>
    have htidy : (h.perform op).1.Tidy := (ht.perform op).tidy
    have hknows : (h.perform op).1.Knows x :=
      (Trail.perform h op).peer?_of_some hx
    have hrest : .register x.handle ∉ ops := fun hmem => hops (List.mem_cons_of_mem op hmem)
    by_cases hstill : x ∈ (h.perform op).1.registered
    · obtain ⟨before, o, after, rfl, htaken, hgone⟩ :=
        ih htidy hknows (fun later => hnames (op :: later)) hrest hstill hout
      exact ⟨op :: before, o, after, rfl, htaken, hgone⟩
    · have htaken : TakesOff h op x := ht.takesOff hx (hnames [op]) hin hstill
      refine ⟨[], op, ops, rfl, htaken, fun later hlater => ⟨?_, fun channel => ?_⟩⟩
      · apply htidy.not_mem_registered_run hknows hstill
        exact fun hmem => hrest (hlater.subset hmem)
      · have hdown : (h.perform op).1.TakenDown x :=
          ((ht.heard_perform hx op (hnames [op]) "" "").stays hin).resolve_left hstill
        exact ((Trail.run _ later).barred (hdown.barred htidy hknows)).not_mem_members channel

end TakesOff

end ChatHub.Hub
