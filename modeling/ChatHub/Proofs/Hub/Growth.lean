import ChatHub.Hub.Operation
import ChatHub.Proofs.Hub.Removal
/-!
What no delivery and no removal ever undoes.  Frames are only put behind those that wait, lifecycles
only advance, a closed queue stays closed and nobody is registered again; each statement carries
along which frames may have been added where.
-/

namespace ChatHub

/-- Nothing opens again. -/
theorem Connection.not_open_of_rank_le {c c' : Connection} (hle : c.state.rank ≤ c'.state.rank)
    (hc : c.isOpen = false) : c'.isOpen = false := by
  simp only [Connection.isOpen, Lifecycle.isOpen, decide_eq_false_iff_not] at hc ⊢
  omega

/-- A connection later on: it has got frames that `new` allows and has come no less far in its
life. -/
structure Connection.Grows (new : Frame → Prop) (c c' : Connection) : Prop where
  rank_le : c.state.rank ≤ c'.state.rank
  capacity : c'.queue.capacity = c.queue.capacity
  abandoned : c'.queue.abandoned = c.queue.abandoned
  closed : c.queue.closed = true → c'.queue.closed = true
  waiting : ∃ fs, c'.queue.waiting = c.queue.waiting ++ fs ∧ ∀ f ∈ fs, new f

namespace Connection.Grows

variable {new : Frame → Prop} {c c' c'' : Connection}

theorem refl (new : Frame → Prop) (c : Connection) : c.Grows new c :=
  ⟨Nat.le_refl _, rfl, rfl, id, [], (List.append_nil _).symm, by simp⟩

theorem trans (h₁ : c.Grows new c') (h₂ : c'.Grows new c'') : c.Grows new c'' := by
  obtain ⟨fs, hfs, hnew⟩ := h₁.waiting
  obtain ⟨gs, hgs, hnew'⟩ := h₂.waiting
  refine ⟨Nat.le_trans h₁.rank_le h₂.rank_le, h₂.capacity.trans h₁.capacity,
    h₂.abandoned.trans h₁.abandoned, fun h => h₂.closed (h₁.closed h), fs ++ gs, ?_, ?_⟩
  · rw [hgs, hfs, List.append_assoc]
  · intro f hf
    exact (List.mem_append.mp hf).elim (hnew f) (hnew' f)

theorem view (new : Frame → Prop) (channel : Option ChannelId) (c : Connection) :
    c.Grows new (c.view channel) :=
  ⟨Nat.le_refl _, rfl, rfl, id, [], (List.append_nil _).symm, by simp⟩

theorem activate (new : Frame → Prop) (c : Connection) : c.Grows new c.activate := by
  rw [Connection.activate]
  split
  next hstate =>
    refine ⟨?_, rfl, rfl, id, [], (List.append_nil _).symm, by simp⟩
    rw [hstate]
    exact Nat.zero_le _
  next => exact refl new c

theorem beginClose (new : Frame → Prop) (c : Connection) : c.Grows new c.beginClose := by
  rw [Connection.beginClose]
  split
  next hopen =>
    simp only [Connection.isOpen, Lifecycle.isOpen, decide_eq_true_eq] at hopen
    exact ⟨Nat.le_of_lt hopen, rfl, rfl, id, [], (List.append_nil _).symm, by simp⟩
  next => exact refl new c

theorem closeQueue (new : Frame → Prop) (c : Connection) : c.Grows new c.closeQueue :=
  ⟨Nat.le_refl _, rfl, rfl, fun _ => rfl, [], (List.append_nil _).symm, by simp⟩

theorem markClosed (new : Frame → Prop) (c : Connection) : c.Grows new c.markClosed := by
  refine ⟨?_, rfl, rfl, id, [], (List.append_nil _).symm, by simp⟩
  cases h : c.state <;> simp [Connection.markClosed, Lifecycle.rank]

theorem offer {f : Frame} (hf : new f) (c : Connection) : c.Grows new (c.offer f) := by
  cases hopen : c.isOpen with
  | false =>
    rw [offer_of_not_open f hopen]
    exact refl new c
  | true =>
    by_cases hfull : c.queue.free = 0
    · rw [offer_of_free_eq_zero f hopen hfull]
      exact beginClose new c
    · rw [offer_of_free_pos f hopen (Nat.pos_of_ne_zero hfull)]
      exact ⟨Nat.le_refl _, rfl, rfl, id, [f], rfl, fun g hg => List.mem_singleton.mp hg ▸ hf⟩

end Connection.Grows

namespace Hub

/-- Joining a room, for one who is let in. -/
theorem joinRoom_eq {h : Hub} {p : Peer} {channel : ChannelId} {rooms : Rooms}
    {users : List UserId}
    (hjoin : h.rooms.join channel p (h.connection p).queue.closed = (rooms, some users)) :
    (h.joinRoom p channel).1 =
      let sent := Hub.sendTo p ⟨.voiceRoomState, .roomState ⟨channel, users⟩⟩ { h with rooms }
      if !sent.2 && !(sent.1.connection p).isOpen then sent.1
      else ((sent.1.broadcastToRoom channel (.joined channel p.user) (some p.id)).1.broadcast
        (.joined channel p.user)).1 := by
  simp only [Hub.joinRoom, hjoin]
  split
  · rfl
  · rfl

/-- The hub later on, nobody having been registered meanwhile: the connection of each number has
got frames that `new` allows it. -/
structure Grows (new : Nat → Frame → Prop) (h h' : Hub) : Prop where
  limits : h'.limits = h.limits
  peer? : ∀ i, h'.peer? i = h.peer? i
  registered : h'.registered.Sublist h.registered
  connection : ∀ p, (h.connection p).Grows (new p.handle) (h'.connection p)

namespace Grows

variable {new : Nat → Frame → Prop} {h h' h'' : Hub}

theorem refl (new : Nat → Frame → Prop) (h : Hub) : Grows new h h :=
  ⟨rfl, fun _ => rfl, .refl _, fun _ => .refl _ _⟩

theorem trans (h₁ : Grows new h h') (h₂ : Grows new h' h'') : Grows new h h'' :=
  ⟨h₂.limits.trans h₁.limits, fun i => (h₂.peer? i).trans (h₁.peer? i),
    h₂.registered.trans h₁.registered, fun p => (h₁.connection p).trans (h₂.connection p)⟩

/-- A change of whatever is no connection. -/
theorem of_table_eq (hlimits : h'.limits = h.limits) (htable : h'.table = h.table)
    (hregistered : h'.registered.Sublist h.registered) : Grows new h h' := by
  refine ⟨hlimits, fun i => ?_, hregistered, fun p => ?_⟩
  · simp only [Hub.peer?, htable]
  · simp only [Hub.connection, htable]
    exact .refl _ _

theorem count (hg : Grows new h h') (f : Counters → Counters) : Grows new h (h'.count f) :=
  hg.trans (of_table_eq rfl rfl (.refl _))

theorem update (new : Nat → Frame → Prop) (p : Peer) {f : Connection → Connection} (h : Hub)
    (hpeer : ∀ c, (f c).peer = c.peer)
    (hf : ∀ c : Connection, c.Grows (new p.handle) (f c)) :
    Grows new h (h.update p f) := by
  refine ⟨rfl, peer?_update p f h hpeer, .refl _, fun q => ?_⟩
  by_cases heq : q.handle = p.handle
  · simp only [Hub.connection, Hub.update, List.getElem?_modify, heq, if_true]
    cases h.table[p.handle]? with
    | none => exact .refl _ _
    | some c => exact hf c
  · rw [connection_update_of_ne p q f h heq]
    exact .refl _ _

theorem push {f : Frame} {ps : List Peer} (h : Hub) (hps : ∀ p ∈ ps, new p.handle f) :
    Grows new h (push f ps h).hub := by
  rw [push_hub]
  induction ps generalizing h with
  | nil => exact refl new h
  | cons p ps ih =>
    have hfirst : Grows new h (h.update p (Connection.offer f)) :=
      update new p h (peer_offer f) fun c => .offer (hps p List.mem_cons_self) c
    exact hfirst.trans (ih _ fun q hq => hps q (List.mem_cons_of_mem p hq))

theorem record {r : Pushed} (hg : Grows new h r.hub) : Grows new h (record r) :=
  hg.trans (of_table_eq rfl rfl (.refl _))

theorem offer {f : Frame} {ts : List Peer} (h : Hub) (hts : ∀ p ∈ ts, new p.handle f) :
    Grows new h (offer f ts h).1 :=
  (push h hts).record

theorem detach (new : Nat → Frame → Prop) (p : Peer) (h : Hub) :
    Grows new h (h.detach p) := by
  have hclosing : Grows new h (h.update p fun c => c.beginClose.closeQueue) := by
    apply update
    · exact fun c => peer_beginClose c
    · exact fun c => (Connection.Grows.beginClose _ c).trans (.closeQueue _ _)
  exact hclosing.trans (of_table_eq rfl rfl List.filter_sublist)

section Left

variable (hleft : ∀ i channel user, new i (leftFrame channel user))

include hleft

/-- Whatever way an announcement takes, it adds nothing but itself if the way adds nothing. -/
theorem announceLeft {via : Delivery}
    (hvia : ∀ f ts h, (∀ p ∈ ts, new p.handle f) → Grows new h (via f ts h).1)
    (user : UserId) (channel : ChannelId) (h : Hub) :
    Grows new h (announceLeft via user channel h) :=
  (hvia _ _ h fun p _ => hleft p.handle channel user).trans
    (hvia _ _ _ fun p _ => hleft p.handle channel user)

theorem announceAll {via : Delivery}
    (hvia : ∀ f ts h, (∀ p ∈ ts, new p.handle f) → Grows new h (via f ts h).1)
    (user : UserId) (channels : List ChannelId) (h : Hub) : Grows new h
      (channels.foldl (fun h channel => Hub.announceLeft via user channel h) h) := by
  induction channels generalizing h with
  | nil => exact refl new h
  | cons channel channels ih =>
    exact (announceLeft hleft hvia user channel h).trans (ih _)

theorem remove {via : Delivery}
    (hvia : ∀ f ts h, (∀ p ∈ ts, new p.handle f) → Grows new h (via f ts h).1)
    (p : Peer) (h : Hub) : Grows new h (remove via p h).1 := by
  rw [remove_eq]
  exact ((detach new p h).trans (announceAll hleft hvia p.user _ _)).trans
    (update new p _ (fun _ => rfl) fun c => .markClosed _ c)

theorem evict (p : Peer) (h : Hub) : Grows new h (evict p h) := by
  have hremoved := remove hleft (fun _ _ h => offer h) p h
  simp only [Hub.evict]
  split
  next => exact hremoved.count _
  next => exact hremoved

theorem evictPending (h : Hub) : Grows new h h.evictPending := by
  induction h using Hub.evictPending.induct with
  | case1 h hnil =>
    rw [evictPending_of_nil hnil]
    exact refl new h
  | case2 h p rest hcons ih =>
    have hpopped : Grows new h { h with pending := rest } := of_table_eq rfl rfl (.refl _)
    rw [evictPending_of_cons hcons]
    exact hpopped.trans ((evict hleft p _).trans ih)

theorem drain (h : Hub) : Grows new h h.drain := by
  rw [Hub.drain]
  split
  next => exact refl new h
  next =>
    have hstart : Grows new h { h with draining := true } := of_table_eq rfl rfl (.refl _)
    exact (hstart.trans (evictPending hleft _)).trans (of_table_eq rfl rfl (.refl _))

theorem deliver {f : Frame} {ts : List Peer} (h : Hub) (hts : ∀ p ∈ ts, new p.handle f) :
    Grows new h (deliver f ts h).1 := by
  have hrecorded := (push h hts).record
  simp only [Hub.deliver]
  split
  next => exact hrecorded
  next => exact hrecorded.trans (drain hleft _)

theorem broadcastWhere (h : Hub) {sel : Connection → Bool} {e : Event}
    (he : ∀ p ∈ h.registered, sel (h.connection p) = true → new p.handle (.event e)) :
    Grows new h (h.broadcastWhere sel e).1 := by
  apply deliver hleft
  intro p hp
  obtain ⟨hreg, hsel⟩ := List.mem_filter.mp hp
  exact he p hreg hsel

theorem broadcastToChannel (h : Hub) {channel : ChannelId} {e : Event}
    (he : ∀ p ∈ h.registered, (h.connection p).viewed = some channel →
      new p.handle (.event e)) :
    Grows new h (h.broadcastToChannel channel e).1 :=
  broadcastWhere hleft h fun p hp hsel => he p hp (beq_iff_eq.mp hsel)

theorem broadcast (h : Hub) {e : Event}
    (he : ∀ p ∈ h.registered, new p.handle (.event e)) :
    Grows new h (h.broadcast e).1 :=
  deliver hleft h he

theorem sendToUser (h : Hub) {user : UserId} {e : Event}
    (he : ∀ p ∈ h.registered, p.user = user → new p.handle (.event e)) :
    Grows new h (h.sendToUser user e).1 := by
  apply deliver hleft
  intro p hp
  obtain ⟨hreg, huser⟩ := List.mem_filter.mp hp
  exact he p hreg (beq_iff_eq.mp huser)

theorem broadcastToRoom (h : Hub) {channel : ChannelId} {e : Event}
    {exclude : Option ConnectionId}
    (he : ∀ p ∈ h.rooms.members channel, exclude ≠ some p.id → new p.handle (.event e)) :
    Grows new h (h.broadcastToRoom channel e exclude).1 := by
  apply deliver hleft
  intro p hp
  obtain ⟨hmem, hother⟩ := List.mem_filter.mp hp
  exact he p hmem (bne_iff_ne.mp hother)

theorem sendTo (h : Hub) {p : Peer} {e : Event} (he : new p.handle (.event e)) :
    Grows new h (h.sendTo p e).1 := by
  simp only [Hub.sendTo]
  exact deliver hleft h fun q hq => List.mem_singleton.mp hq ▸ he

theorem unregister (p : Peer) (h : Hub) : Grows new h (h.unregister p).1 :=
  remove hleft (fun _ _ h => deliver hleft h) p h

theorem leaveRoom (p : Peer) (channel : ChannelId) (h : Hub) :
    Grows new h (h.leaveRoom p channel).1 := by
  simp only [Hub.leaveRoom]
  split
  next =>
    have hleaving : Grows new h { h with rooms := (h.rooms.leave channel p.id).1 } :=
      of_table_eq rfl rfl (.refl _)
    exact hleaving.trans
      (announceLeft hleft (fun _ _ h => deliver hleft h) p.user channel _)
  next => exact refl new h

theorem joinRoom (h : Hub) {p : Peer} {channel : ChannelId}
    (hstate : ∀ users, new p.handle
      (.event ⟨.voiceRoomState, .roomState ⟨channel, users⟩⟩))
    (hjoined : ∀ i, new i (.event (.joined channel p.user))) :
    Grows new h (h.joinRoom p channel).1 := by
  rw [Hub.joinRoom]
  split
  next => exact refl new h
  next rooms users _ =>
    have hentered : Grows new h { h with rooms } := of_table_eq rfl rfl (.refl _)
    have hsent := hentered.trans (sendTo hleft { h with rooms } (hstate users))
    simp only
    split
    next => exact hsent
    next =>
      exact (hsent.trans (broadcastToRoom hleft _ fun q _ _ => hjoined q.handle)).trans
        (broadcast hleft _ fun q _ => hjoined q.handle)

theorem relaySignal (h : Hub) {p : Peer} {kind : SignalKind} {s : Signal}
    (hsignal : s.target ≠ p.user → h.rooms.areCoMembers s.channel p.user s.target = true →
      ∀ q ∈ h.registered, q.user = s.target →
        new q.handle (.event ⟨kind.eventKind, .signal ⟨s.channel, p.user, s.payload⟩⟩)) :
    Grows new h (h.relaySignal p kind s).1 := by
  rw [Hub.relaySignal]
  split
  next => exact of_table_eq rfl rfl (.refl _)
  next hgate =>
    simp only [Bool.or_eq_true, beq_iff_eq, Bool.not_eq_true', not_or, Bool.not_eq_false]
      at hgate
    exact (sendToUser hleft h (hsignal hgate.1 hgate.2)).trans (of_table_eq rfl rfl (.refl _))

theorem reportMedia (h : Hub) {p : Peer} {r : MediaReport}
    (hmedia : ∀ q ∈ h.rooms.members r.channel, some p.id ≠ some q.id → new q.handle
      (.event ⟨.voiceMediaState, .mediaState ⟨r.channel, p.user, r.camera, r.screen⟩⟩)) :
    Grows new h (h.reportMedia p r) := by
  rw [Hub.reportMedia]
  split
  next => exact broadcastToRoom hleft h hmedia
  next => exact refl new h

end Left

end Grows

/-- Whatever is delivered, the hub grows by some frames. -/
theorem grows_deliver (f : Frame) (targets : List Peer) (h : Hub) :
    Grows (fun _ _ => True) h (deliver f targets h).1 :=
  .deliver (fun _ _ _ => trivial) h fun _ _ => trivial

end Hub

end ChatHub
