import ChatHub.Proofs.Hub.Course
import ChatHub.Proofs.Hub.Trail
/-!
Every history leaves the hub tidy, whatever has been asked of it and of its connections.  A command
is looked at more closely: what it makes the hub say of its own accord depends on the command, the
one who sends it and the state, and on nothing else.
-/

namespace ChatHub.Hub

/-- What the command `c` of `p` makes the hub tell `x`, apart from news of those who have to go. -/
inductive Says (h : Hub) (p x : Peer) : Command → Frame → Prop
  | typing {channel : ChannelId} (hregistered : x ∈ h.registered)
      (hviewed : (h.connection x).viewed = some channel) :
      Says h p x (.typing channel) (.event ⟨.typing, .typing ⟨p.user, channel⟩⟩)
  | roomState {channel : ChannelId} {users : List UserId} (hself : x = p) :
      Says h p x (.voiceJoin channel) (.event ⟨.voiceRoomState, .roomState ⟨channel, users⟩⟩)
  | joined {channel : ChannelId} :
      Says h p x (.voiceJoin channel) (.event (.joined channel p.user))
  | left {channel : ChannelId} : Says h p x (.voiceLeave channel) (leftFrame channel p.user)
  | signal {kind : SignalKind} {s : Signal} (hmay : h.MaySignal p s)
      (hregistered : x ∈ h.registered) (htarget : x.user = s.target) :
      Says h p x (.signal kind s) (.event (signalEvent p kind s))
  | mediaState {r : MediaReport} (hinside : h.rooms.contains r.channel p.id = true)
      (hmember : x ∈ h.rooms.members r.channel) (hother : x.id ≠ p.id) :
      Says h p x (.mediaState r)
        (.event ⟨.voiceMediaState, .mediaState ⟨r.channel, p.user, r.camera, r.screen⟩⟩)
  | pong (hself : x = p) : Says h p x .ping (.event .pong)

/-- The same by the number of the connection. -/
def SaysTo (h : Hub) (p : Peer) (c : Command) (i : Nat) (f : Frame) : Prop :=
  ∃ x, h.Knows x ∧ x.handle = i ∧ h.Says p x c f

/-- The hub when a command begins to be announced: one who joins a room is in it by then. -/
def entering (p : Peer) : Command → Hub → Hub
  | .voiceJoin channel, h => h.move (.enter p channel)
  | _, h => h

namespace Tidy

variable {h : Hub} (ht : h.Tidy)

include ht

theorem update {p : Peer} {f : Connection → Connection} (hpeer : ∀ c, (f c).peer = c.peer)
    (hrank : ∀ c, c.state.rank ≤ (f c).state.rank) : (h.update p f).Tidy where
  toKeyed := ht.toKeyed.update hpeer hrank
  rooms := ht.rooms
  members_known := fun channel m hm =>
    (peer?_update p f h hpeer m.handle).trans (ht.members_known channel m hm)
  pending := ht.pending
  draining := ht.draining

theorem create (user : UserId) (capacity : Nat) (name : Option String) :
    (h.create user capacity name).1.Tidy where
  toKeyed := ht.toKeyed.create user capacity name
  rooms := ht.rooms
  members_known := fun channel m hm =>
    ht.toKeyed.peer?_create_of_some (ht.members_known channel m hm) user capacity name
  pending := ht.pending
  draining := ht.draining

theorem register {p : Peer} (hp : h.Knows p) : (h.register p).Tidy where
  toKeyed := ht.toKeyed.register hp
  rooms := ht.rooms
  members_known := fun channel m hm =>
    (peer?_update p Connection.activate h peer_activate m.handle).trans
      (ht.members_known channel m hm)
  pending := ht.pending
  draining := ht.draining

theorem enter {p : Peer} (hp : h.Knows p) (channel : ChannelId) :
    (h.move (.enter p channel)).Tidy := by
  simp only [move, Rooms.join]
  split
  next => exact ht
  next =>
    refine ⟨⟨ht.numbered, ht.known, ht.ids_nodup, ht.started⟩, ht.rooms.insert channel p, ?_,
      ht.pending, ht.draining⟩
    intro c m hm
    rcases Rooms.mem_members_insert.mp hm with ⟨_, rfl⟩ | ⟨hold, _⟩
    · exact hp
    · exact ht.members_known c m hold

/-- Joining a room, from the moment when the one who joins is in it. -/
theorem calm_joinRoom {own : Nat → Frame → Prop} {p : Peer} (hp : h.Knows p) {channel : ChannelId}
    (hstate : ∀ users, own p.handle (.event ⟨.voiceRoomState, .roomState ⟨channel, users⟩⟩))
    (hjoined : ∀ q, h.Knows q → own q.handle (.event (.joined channel p.user))) :
    Calm own (h.move (.enter p channel)) (h.joinRoom p channel).1 := by
  have hentered := ht.enter hp channel
  cases hjoin : h.rooms.join channel p (h.connection p).queue.closed with
  | mk rooms joined =>
    have hstart : h.move (.enter p channel) = { h with rooms } := by simp only [move, hjoin]
    rw [hstart] at hentered ⊢
    cases joined with
    | none =>
      have hsame : rooms = h.rooms := by
        rw [Rooms.join] at hjoin
        split at hjoin
        next => exact (congrArg Prod.fst hjoin).symm
        next => cases hjoin
      simp only [joinRoom, hjoin, hsame]
      exact .start ht own
    | some users =>
      have hsent := (Calm.start hentered own).sendTo hentered hp (hstate users)
      rw [joinRoom_eq hjoin]
      simp only
      split
      next => exact hsent
      next =>
        apply Calm.broadcast hentered
        · apply hsent.broadcastToRoom hentered
          exact fun q hq _ => hjoined q (hsent.knows_of_mem_members hentered hq)
        · exact hjoined

/-- Handling a command of a connection that has a say. -/
theorem calm_handle {p : Peer} (hp : h.Knows p) (hopen : (h.connection p).isOpen = true)
    (c : Command) : Calm (h.SaysTo p c) (h.entering p c) (h.handle p c) := by
  have htold {x : Peer} {f : Frame} (hx : h.Knows x) (hf : h.Says p x c f) :
      h.SaysTo p c x.handle f := ⟨x, hx, rfl, hf⟩
  have hstart : Calm (h.SaysTo p c) h h := .start ht _
  simp only [handle, hopen, if_true]
  cases c with
  | subscribe channel =>
    exact hstart.keep (.update _ p h (fun _ => rfl) fun c => .view _ channel c) rfl rfl rfl
  | typing channel =>
    exact hstart.broadcastToChannel ht fun x hx hviewed =>
      htold (ht.known x hx) (.typing hx hviewed)
  | voiceJoin channel =>
    exact ht.calm_joinRoom hp (fun _ => htold hp (.roomState rfl)) fun q hq => htold hq .joined
  | voiceLeave channel => exact hstart.leaveRoom ht fun q hq => htold hq .left
  | signal kind s =>
    exact hstart.relaySignal ht fun hmay x hx htarget =>
      htold (ht.known x hx) (.signal hmay hx htarget)
  | mediaState r =>
    exact hstart.reportMedia ht fun hinside x hx hother =>
      htold (ht.members_known r.channel x hx) (.mediaState hinside hx hother)
  | ping => exact hstart.sendTo ht hp (htold hp (.pong rfl))
  | unknown tag => exact hstart

theorem entering {p : Peer} (hp : h.Knows p) (c : Command) : (h.entering p c).Tidy := by
  cases c with
  | voiceJoin channel => exact ht.enter hp channel
  | _ => exact ht

end Tidy

/-- One operation later.  Who is registered was so before, or is new, or is registered by it. -/
structure Advances (op : Operation) (h h' : Hub) : Prop where
  tidy : h'.Tidy
  registered : ∀ q ∈ h'.registered, q ∈ h.registered ∨ ¬ h.Knows q ∨ op = .register q.handle

namespace Advances

variable {op : Operation} {h h' : Hub}

theorem of_registered_eq (htidy : h'.Tidy) (heq : h'.registered = h.registered) :
    Advances op h h' :=
  ⟨htidy, fun _ hq => Or.inl (heq ▸ hq)⟩

theorem refl (ht : h.Tidy) (op : Operation) : Advances op h h := of_registered_eq ht rfl

/-- A course that starts from the same set. -/
theorem of_calm {own : Nat → Frame → Prop} {g : Hub} (hg : g.Tidy)
    (hregistered : g.registered = h.registered) (hc : Calm own g h') : Advances op h h' :=
  ⟨hc.tidy hg, fun _ hq => Or.inl (hregistered ▸ hc.grows.registered.subset hq)⟩

theorem withPeer (ht : h.Tidy) (c : Nat) {f : Peer → Hub × Outcome}
    (hf : ∀ p, h.peer? c = some p → h.Knows p → Advances op h (f p).1) :
    Advances op h (h.withPeer c f).1 := by
  rw [Hub.withPeer]
  split
  next p hp => exact hf p hp (ht.knows_of_peer? hp)
  next => exact refl ht op

end Advances

namespace Tidy

variable {h : Hub} (ht : h.Tidy)

include ht

theorem advances_update {op : Operation} {p : Peer} {f : Connection → Connection}
    (hpeer : ∀ c, (f c).peer = c.peer) (hrank : ∀ c, c.state.rank ≤ (f c).state.rank) :
    Advances op h (h.update p f) :=
  .of_registered_eq (ht.update hpeer hrank) rfl

theorem advances_handle {op : Operation} {p : Peer} (hp : h.Knows p) (c : Command) :
    Advances op h (h.handle p c) := by
  cases hopen : (h.connection p).isOpen with
  | false =>
    simp only [handle, hopen, Bool.false_eq_true, if_false]
    exact .refl ht op
  | true =>
    refine .of_calm (ht.entering hp c) ?_ (ht.calm_handle hp hopen c)
    cases c <;> rfl

/-- The new connection is the only one that is let in, under a number that nobody has had. -/
theorem advances_connect {op : Operation} {user : UserId} {h' : Hub} {p : Peer}
    (hok : h.connect user = .ok (h', p)) : Advances op h h' := by
  have hn := connected_of_connect hok
  have hold {q : Peer} (hq : h.Knows q) : h'.Knows q := hn.knows_iff.mpr (Or.inr hq)
  have hstep : Steps false (fun _ _ => True) h h' := ht.toKeyed.steps_connect hok
  refine ⟨⟨hstep.keyed, hn.rooms ▸ ht.rooms, fun channel m hm => ?_, hn.pending.trans ht.pending,
    hn.draining.trans ht.draining⟩, fun q hq => ?_⟩
  · rw [hn.rooms] at hm
    exact hold (ht.members_known channel m hm)
  · rw [hn.registered] at hq
    rcases mem_insertPeer.mp hq with rfl | ⟨hmem, _⟩
    · exact Or.inr (Or.inl fun hknows => hn.handle_ne hknows rfl)
    · exact Or.inl hmem

/-- Whoever goes from the rooms, the hub stays tidy. -/
theorem advances_withRooms {op : Operation} {rooms : Rooms} (hvalid : rooms.Valid)
    (hmembers : ∀ channel, rooms.members channel ⊆ h.rooms.members channel) :
    Advances op h { h with rooms } :=
  .of_registered_eq ⟨⟨ht.numbered, ht.known, ht.ids_nodup, ht.started⟩, hvalid,
    fun channel m hm => ht.members_known channel m (hmembers channel hm), ht.pending,
    ht.draining⟩ rfl

/-- What an operation makes of a tidy hub. -/
theorem perform (op : Operation) : Advances op h (h.perform op).1 := by
  have hcalm {h' : Hub} (hc : Calm (fun _ _ => True) h h') : Advances op h h' := .of_calm ht rfl hc
  have hstart : Calm (fun _ _ => True) h h := .start ht _
  cases op with
  | connect user =>
    simp only [Hub.perform]
    split
    next h' p hok => exact ht.advances_connect hok
    next => exact .refl ht _
  | create user capacity name => exact .of_registered_eq (ht.create user capacity name) rfl
  | register c =>
    refine .withPeer ht c fun p hp hknows => ⟨ht.register hknows, fun q hq => ?_⟩
    rcases mem_insertPeer.mp hq with rfl | ⟨hold, _⟩
    · exact Or.inr (Or.inr (congrArg Operation.register (ht.numbered c q hp).symm))
    · exact Or.inl hold
  | unregister c =>
    exact .withPeer ht c fun p _ _ => hcalm (hstart.unregister ht fun _ _ _ => trivial)
  | activate c =>
    exact .withPeer ht c fun p _ _ => ht.advances_update peer_activate
      fun c => (Connection.Grows.activate (fun _ => True) c).rank_le
  | beginClose c =>
    exact .withPeer ht c fun p _ _ => ht.advances_update peer_beginClose
      fun c => (Connection.Grows.beginClose (fun _ => True) c).rank_le
  | closeQueue c =>
    exact .withPeer ht c fun p _ _ => ht.advances_update (fun _ => rfl) fun _ => Nat.le_refl _
  | markClosed c =>
    exact .withPeer ht c fun p _ _ => ht.advances_update (fun _ => rfl)
      fun c => (Connection.Grows.markClosed (fun _ => True) c).rank_le
  | send c frame =>
    refine .withPeer ht c fun p _ _ => ?_
    split
    next => exact ht.advances_update (fun _ => rfl) fun _ => Nat.le_refl _
    next => exact .refl ht _
  | view c channel =>
    exact .withPeer ht c fun p _ _ => ht.advances_update (fun _ => rfl) fun _ => Nat.le_refl _
  | take c =>
    refine .withPeer ht c fun p _ _ => ?_
    split
    next => exact ht.advances_update (fun _ => rfl) fun _ => Nat.le_refl _
    next => exact .refl ht _
  | abandon c =>
    exact .withPeer ht c fun p _ _ => ht.advances_update (fun _ => rfl) fun _ => Nat.le_refl _
  | handle c command => exact .withPeer ht c fun p _ hknows => ht.advances_handle hknows command
  | handleText c text =>
    refine .withPeer ht c fun p _ hknows => ?_
    cases hdecode : Command.decode text with
    | error e =>
      simp only [handleText, hdecode]
      exact .refl ht _
    | ok command =>
      simp only [handleText, hdecode]
      exact ht.advances_handle hknows command
  | join c channel =>
    refine .withPeer ht c fun p _ hknows => ?_
    have hjoined : Calm (fun _ _ => True) (h.move (.enter p channel)) (h.joinRoom p channel).1 :=
      ht.calm_joinRoom hknows (fun _ => trivial) fun _ _ => trivial
    exact .of_calm (ht.enter hknows channel) rfl hjoined
  | leave c channel =>
    exact .withPeer ht c fun p _ _ => hcalm (hstart.leaveRoom ht fun _ _ => trivial)
  | relay c kind s =>
    exact .withPeer ht c fun p _ _ => hcalm (hstart.relaySignal ht fun _ _ _ _ => trivial)
  | broadcast e => exact hcalm (hstart.broadcast ht fun _ _ => trivial)
  | broadcastToChannel channel e =>
    exact hcalm (hstart.broadcastToChannel ht fun _ _ _ => trivial)
  | sendToUser user e => exact hcalm (hstart.sendToUser ht fun _ _ _ => trivial)
  | broadcastToRoom channel e exclude =>
    cases exclude with
    | none => exact hcalm (hstart.broadcastToRoom ht fun _ _ _ => trivial)
    | some c =>
      exact .withPeer ht c fun p _ _ => hcalm (hstart.broadcastToRoom ht fun _ _ _ => trivial)
  | sendTo c e =>
    exact .withPeer ht c fun p _ hknows => hcalm (hstart.sendTo ht hknows trivial)
  | publishMessage message digest =>
    exact hcalm ((hstart.broadcastToChannel ht fun _ _ _ => trivial).broadcast ht
      fun _ _ => trivial)
  | publishEdit channel message =>
    exact hcalm (hstart.broadcastToChannel ht fun _ _ _ => trivial)
  | publishDeletion channel message =>
    exact hcalm (hstart.broadcastToChannel ht fun _ _ _ => trivial)
  | publishReactions channel reactions =>
    exact hcalm (hstart.broadcastToChannel ht fun _ _ _ => trivial)
  | publishServerEvent e =>
    cases hkind : e.kind.isServerWide with
    | false =>
      simp only [Hub.perform, publishServerEvent, hkind, Bool.false_eq_true, if_false]
      exact .refl ht _
    | true =>
      simp only [Hub.perform, publishServerEvent, hkind, if_true]
      exact hcalm (hstart.broadcast ht fun _ _ => trivial)
  | enterRoom c channel =>
    exact .withPeer ht c fun p _ hknows => .of_registered_eq (ht.enter hknows channel) rfl
  | exitRoom c channel =>
    exact .withPeer ht c fun p _ _ => ht.advances_withRooms (ht.rooms.leave channel p.id)
      fun _ _ hm => ((Rooms.mem_members_leave ht.rooms).mp hm).1
  | exitRooms c =>
    exact .withPeer ht c fun p _ _ => ht.advances_withRooms
      (ht.rooms.restrict fun _ q => q.id != p.id) fun _ => Rooms.members_leaveAll_subset ht.rooms

theorem run (ops : List Operation) : (h.run ops).Tidy := by
  induction ops generalizing h with
  | nil => exact ht
  | cons op ops ih => exact ih (ht.perform op).tidy

end Tidy

theorem tidy_new (limits : Limits) : (new limits).Tidy where
  toKeyed := keyed_new limits
  rooms := Rooms.valid_empty
  members_known := fun _ _ hm => absurd hm List.not_mem_nil
  pending := rfl
  draining := rfl

end ChatHub.Hub
