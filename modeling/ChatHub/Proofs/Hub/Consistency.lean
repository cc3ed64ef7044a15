import ChatHub.Proofs.Hub.Cascade
import ChatHub.Proofs.Hub.History
/-!
Between any two operations the set, the rooms, the lifecycles and the queues tell the same story,
however the operations are mixed and whoever is evicted on the way.
-/

namespace ChatHub

namespace Connection

/-- The queue has the given capacity and holds no more than that. -/
structure Fits (capacity : Nat) (c : Connection) : Prop where
  capacity_eq : c.queue.capacity = capacity
  length_le : c.queue.waiting.length ≤ capacity

theorem Fits.taking {capacity : Nat} {c : Connection} (hc : c.Fits capacity) {fs : List Frame}
    (hfree : fs.length ≤ c.queue.free) : (c.taking fs).Fits capacity where
  capacity_eq := hc.capacity_eq
  length_le := by
    have hle := hc.length_le
    have hcap := hc.capacity_eq
    simp only [Connection.taking, List.length_append]
    rw [Queue.free] at hfree
    split at hfree
    next => omega
    next => omega

theorem Fits.beginClose {capacity : Nat} {c : Connection} (hc : c.Fits capacity) :
    c.beginClose.Fits capacity := by
  rw [Connection.beginClose]
  split
  · exact ⟨hc.capacity_eq, hc.length_le⟩
  · exact hc

theorem Fits.offerAll {capacity : Nat} {c : Connection} (hc : c.Fits capacity)
    (fs : List Frame) : (c.offerAll fs).Fits capacity := by
  cases hopen : c.isOpen with
  | false => rwa [offerAll_of_not_open fs hopen]
  | true =>
    by_cases hfree : fs.length ≤ c.queue.free
    · rw [offerAll_of_le_free hopen hfree]
      exact hc.taking hfree
    · rw [offerAll_of_free_lt hopen (by omega)]
      exact (hc.taking (List.length_take_le _ _)).beginClose

end Connection

namespace Hub

/-- What holds of a hub between two operations.  Only the connection in `leaving`, if any, may be
on its way out: off the set already, and not closed yet. -/
structure ConsistentBut (leaving : Option Peer) (h : Hub) : Prop extends h.Quiescent where
  /-- The table has every connection under its own number, -/
  numbered : ∀ i p, h.peer? i = some p → p.handle = i
  /-- and no two of them share a name. -/
  fresh : ∀ p, h.Knows p → p.id = .fresh p.handle
  /-- One that is not in the set has been taken down for good. -/
  gone : ∀ p, h.Knows p → p ∉ h.registered →
    (some p ≠ leaving → (h.connection p).state = .closed) ∧
      (h.connection p).isOpen = false ∧ (h.connection p).queue.closed = true
  /-- No queue holds more than its capacity. -/
  fits : ∀ p, h.Knows p → (h.connection p).Fits (max 1 h.limits.queueCapacity)

/-- What holds of a hub between two operations. -/
abbrev Consistent (h : Hub) : Prop := h.ConsistentBut none

namespace ConsistentBut

variable {h : Hub} {leaving : Option Peer} (hc : h.ConsistentBut leaving)

include hc

/-- Names of made connections are told apart, whether they are registered or not. -/
theorem distinguishes {p : Peer} (hp : h.Knows p) : h.Distinguishes p := by
  intro q hq heq
  have hid := heq
  rw [hc.fresh q (hc.known q hq), hc.fresh p hp, ConnectionId.fresh.injEq] at hid
  exact (hc.known q hq).eq_of_handle hp hid

theorem not_mem_handles {p : Peer} (hp : h.Knows p) (hout : p ∉ h.registered) :
    p.handle ∉ h.registered.map Peer.handle :=
  fun hin => hout ((hp.mem_handles_iff hc.known).mp hin)

theorem delivered {f : Frame} {targets gone : List Peer} {h' : Hub}
    (hd : Delivered h f targets gone h') : h'.ConsistentBut leaving where
  toQuiescent := hd.quiescent hc.toQuiescent
  numbered := fun i p hp => hc.numbered i p ((hd.peer? i).symm.trans hp)
  fresh := fun p hp => hc.fresh p ((hd.peer? p.handle).symm.trans hp)
  gone := by
    intro p hp hout
    have hknown : h.Knows p := (hd.peer? p.handle).symm.trans hp
    by_cases hreg : p ∈ h.registered
    · have hgone : p ∈ gone := by
        by_contra hstays
        exact hout (hd.mem_registered.mpr ⟨hreg, hstays⟩)
      rw [hd.removed p hgone]
      exact ⟨fun _ => rfl, rfl, rfl⟩
    · rw [hd.bystander p (hc.not_mem_handles hknown hreg)]
      exact hc.gone p hknown hreg
  fits := by
    intro p hp
    have hknown : h.Knows p := (hd.peer? p.handle).symm.trans hp
    have hfits := hc.fits p hknown
    rw [hd.limits]
    by_cases hreg : p ∈ h.registered
    · by_cases hgone : p ∈ gone
      · rw [hd.removed p hgone]
        have hshut := (hfits.offerAll (h.owedInTurn f targets gone p)).beginClose
        exact ⟨hshut.capacity_eq, hshut.length_le⟩
      · rw [hd.survivor p hreg hgone]
        exact hfits.offerAll _
    · rwa [hd.bystander p (hc.not_mem_handles hknown hreg)]

theorem deliver (f : Frame) {targets : List Peer} (htargets : h.Receivers targets) :
    (deliver f targets h).1.ConsistentBut leaving := by
  obtain ⟨gone, hd⟩ := exists_delivered hc.toQuiescent f htargets
  exact hc.delivered hd

theorem announceLeft (user : UserId) (channel : ChannelId) :
    (announceLeft Hub.deliver user channel h).ConsistentBut leaving := by
  have hroom := hc.deliver (leftFrame channel user) (hc.receivers_members channel)
  exact hroom.deliver (leftFrame channel user) hroom.receivers_registered

/-- A change of the counters. -/
theorem count (f : Counters → Counters) : (h.count f).ConsistentBut leaving :=
  ⟨⟨⟨hc.known, hc.ids_nodup, hc.rooms, hc.members⟩, hc.active, hc.queue_open, hc.pending,
    hc.draining⟩, hc.numbered, hc.fresh, hc.gone, hc.fits⟩

/-- A change of the rooms that lets in nobody from outside the set. -/
theorem withRooms {rooms : Rooms} (hvalid : rooms.Valid)
    (hmembers : ∀ r ∈ rooms.rooms, ∀ p ∈ r.members, p ∈ h.registered) :
    ({ h with rooms } : Hub).ConsistentBut leaving :=
  ⟨hc.toQuiescent.withRooms hvalid hmembers, hc.numbered, hc.fresh, hc.gone, hc.fits⟩

/-- A change that concerns one connection and may take it out of the set. -/
theorem change {p : Peer} (hp : h.Knows p) {h' : Hub} {leaving' : Option Peer}
    (hw : h'.WellFormed) (hlimits : h'.limits = h.limits)
    (hpeer : ∀ i, h'.peer? i = h.peer? i)
    (hpending : h'.pending = h.pending) (hdraining : h'.draining = h.draining)
    (hregistered : ∀ q, q ≠ p → (q ∈ h'.registered ↔ q ∈ h.registered))
    (hother : ∀ q, h.Knows q → q ≠ p → h'.connection q = h.connection q)
    (hleaving : ∀ q, q ≠ p → some q ≠ leaving' → some q ≠ leaving)
    (hin : p ∈ h'.registered →
      (h'.connection p).state = .active ∧ (h'.connection p).queue.closed = false)
    (hout : p ∉ h'.registered →
      (some p ≠ leaving' → (h'.connection p).state = .closed) ∧
        (h'.connection p).isOpen = false ∧ (h'.connection p).queue.closed = true)
    (hfits : (h'.connection p).Fits (max 1 h.limits.queueCapacity)) :
    h'.ConsistentBut leaving' := by
  have hknows {q : Peer} (hq : h'.Knows q) : h.Knows q := (hpeer q.handle).symm.trans hq
  refine ⟨⟨hw, ?_, ?_, hpending.trans hc.pending, hdraining.trans hc.draining⟩, ?_, ?_, ?_, ?_⟩
  · intro q hq
    by_cases heq : q = p
    · exact heq ▸ (hin (heq ▸ hq)).1
    · rw [hother q (hknows (hw.known q hq)) heq]
      exact hc.active q ((hregistered q heq).mp hq)
  · intro q hq
    by_cases heq : q = p
    · exact heq ▸ (hin (heq ▸ hq)).2
    · rw [hother q (hknows (hw.known q hq)) heq]
      exact hc.queue_open q ((hregistered q heq).mp hq)
  · exact fun i q hq => hc.numbered i q ((hpeer i).symm.trans hq)
  · exact fun q hq => hc.fresh q (hknows hq)
  · intro q hq hnot
    by_cases heq : q = p
    · subst heq
      exact hout hnot
    · rw [hother q (hknows hq) heq]
      have hold := hc.gone q (hknows hq) fun hreg => hnot ((hregistered q heq).mpr hreg)
      exact ⟨fun hne => hold.1 (hleaving q heq hne), hold.2⟩
  · intro q hq
    rw [hlimits]
    by_cases heq : q = p
    · exact heq ▸ hfits
    · rw [hother q (hknows hq) heq]
      exact hc.fits q (hknows hq)

/-- A change of one connection that leaves it where it is in its life. -/
theorem update {p : Peer} (hp : h.Knows p) {f : Connection → Connection}
    (hpeer : ∀ c, (f c).peer = c.peer)
    (hstate : (f (h.connection p)).state = (h.connection p).state)
    (hclosed : (f (h.connection p)).queue.closed = (h.connection p).queue.closed)
    (hfits : ∀ n, (h.connection p).Fits n → (f (h.connection p)).Fits n) :
    (h.update p f).ConsistentBut leaving := by
  have hself := connection_update_self p f h hp
  have hpeer' := peer?_update p f h hpeer
  have hw : (h.update p f).WellFormed :=
    ⟨fun q hq => (hpeer' q.handle).trans (hc.known q hq), hc.ids_nodup, hc.rooms, hc.members⟩
  refine hc.change hp hw rfl hpeer' rfl rfl (fun _ _ => Iff.rfl)
    (fun q hq hne => connection_update_of_ne p q f h fun heq => hne (hq.eq_of_handle hp heq))
    (fun _ _ => id) ?_ ?_ (hself ▸ hfits _ (hc.fits p hp))
  · intro hreg
    rw [hself, hstate, hclosed]
    exact ⟨hc.active p hreg, hc.queue_open p hreg⟩
  · intro hnot
    rw [hself, hstate, Connection.isOpen, hstate, hclosed]
    exact hc.gone p hp hnot

/-- A connection that begins to leave. -/
theorem detach {p : Peer} (hp : h.Knows p) (hnone : leaving = none) :
    (h.detach p).ConsistentBut (some p) := by
  subst hnone
  have hd := hc.distinguishes hp
  have hshut := (hc.fits p hp).beginClose
  refine hc.change hp (hc.toWellFormed.detach hd) rfl detach_peer? rfl rfl
    (fun q hne => (mem_detach_registered hd).trans (and_iff_left hne))
    (fun q hq hne => detach_connection_of_ne fun heq => hne (hq.eq_of_handle hp heq))
    (fun q _ _ => Option.some_ne_none q) ?_ ?_ ?_
  · exact fun hreg => absurd rfl ((mem_detach_registered hd).mp hreg).2
  · rw [detach_connection_self]
    exact fun _ => ⟨fun hne => absurd rfl hne, isOpen_beginClose _, rfl⟩
  · rw [detach_connection_self]
    exact ⟨hshut.capacity_eq, hshut.length_le⟩

/-- A connection that has left. -/
theorem markClosed {p : Peer} (hp : h.Knows p) (hsome : leaving = some p)
    (hout : p ∉ h.registered) : (h.update p Connection.markClosed).Consistent := by
  subst hsome
  have hself := connection_update_self p Connection.markClosed h hp
  have hpeer := peer?_update p Connection.markClosed h fun _ => rfl
  have hw : (h.update p Connection.markClosed).WellFormed :=
    ⟨fun q hq => (hpeer q.handle).trans (hc.known q hq), hc.ids_nodup, hc.rooms, hc.members⟩
  refine hc.change hp hw rfl hpeer rfl rfl (fun _ _ => Iff.rfl)
    (fun q hq hne => connection_update_of_ne p q _ h fun heq => hne (hq.eq_of_handle hp heq))
    (fun q hne _ heq => hne (Option.some.inj heq)) (fun hreg => absurd hreg hout) ?_ ?_
  · rw [hself]
    exact fun _ => ⟨fun _ => rfl, rfl, (hc.gone p hp hout).2.2⟩
  · rw [hself]
    exact ⟨(hc.fits p hp).capacity_eq, (hc.fits p hp).length_le⟩

end ConsistentBut

theorem sendTo_of_not_open {h : Hub} {p : Peer} (hclosed : (h.connection p).isOpen = false)
    (e : Event) : (h.sendTo p e).1 = h.count fun n => { n with events := n.events + 1 } := by
  simp [sendTo, deliver, push, hclosed, record, count]

namespace Consistent

variable {h : Hub} (hc : h.Consistent)

include hc

theorem mem_registered_of_isOpen {p : Peer} (hp : h.Knows p)
    (hopen : (h.connection p).isOpen = true) : p ∈ h.registered := by
  by_contra hout
  rw [(hc.gone p hp hout).2.1] at hopen
  cases hopen

theorem mem_registered_of_queue_open {p : Peer} (hp : h.Knows p)
    (hopen : (h.connection p).queue.closed = false) : p ∈ h.registered := by
  by_contra hout
  rw [(hc.gone p hp hout).2.2] at hopen
  cases hopen

/-- A new connection has a name of its own. -/
theorem mem_registered_connect {user : UserId} {h' : Hub} {p q : Peer}
    (hn : Connected user h p h') : q ∈ h'.registered ↔ q = p ∨ q ∈ h.registered := by
  rw [hn.registered, mem_insertPeer]
  apply or_congr_right
  refine and_iff_left_of_imp fun hq heq => ?_
  rw [hc.fresh q (hc.known q hq), hn.id_eq, ConnectionId.fresh.injEq] at heq
  exact hn.handle_ne (hc.known q hq) heq

theorem connect {user : UserId} {h' : Hub} {p : Peer} (hok : h.connect user = .ok (h', p)) :
    h'.Consistent := by
  have hn := connected_of_connect hok
  have hreg {q : Peer} : q ∈ h'.registered ↔ q = p ∨ q ∈ h.registered :=
    hc.mem_registered_connect hn
  have hstate : ∀ q ∈ h'.registered, (h'.connection q).state = .active ∧
      (h'.connection q).queue.closed = false := by
    intro q hq
    rcases hreg.mp hq with rfl | hq
    · rw [hn.newest]
      exact ⟨rfl, rfl⟩
    · rw [hn.connection_eq (hc.known q hq)]
      exact ⟨hc.active q hq, hc.queue_open q hq⟩
  refine ⟨⟨⟨?_, ?_, ?_, ?_⟩, fun q hq => (hstate q hq).1, fun q hq => (hstate q hq).2,
    hn.pending.trans hc.pending, hn.draining.trans hc.draining⟩, ?_, ?_, ?_, ?_⟩
  · intro q hq
    exact hn.knows_iff.mpr ((hreg.mp hq).imp_right (hc.known q))
  · rw [hn.registered]
    exact ids_insertPeer_nodup hc.ids_nodup
  · exact hn.rooms ▸ hc.rooms
  · intro r hr q hq
    rw [hn.rooms] at hr
    exact hreg.mpr (Or.inr (hc.members r hr q hq))
  · intro i q hq
    rw [hn.peer?] at hq
    split at hq
    next heq => rw [← Option.some.inj hq, heq, hn.peer_eq]
    next => exact hc.numbered i q hq
  · intro q hq
    rcases hn.knows_iff.mp hq with rfl | hq
    · exact hn.id_eq
    · exact hc.fresh q hq
  · intro q hq hout
    rcases hn.knows_iff.mp hq with rfl | hq
    · exact absurd (hreg.mpr (Or.inl rfl)) hout
    · rw [hn.connection_eq hq]
      exact hc.gone q hq fun hin => hout (hreg.mpr (Or.inr hin))
  · intro q hq
    rw [hn.limits]
    rcases hn.knows_iff.mp hq with rfl | hq
    · rw [hn.newest]
      exact ⟨rfl, Nat.zero_le _⟩
    · rw [hn.connection_eq hq]
      exact hc.fits q hq

theorem broadcast (e : Event) : (h.broadcast e).1.Consistent :=
  hc.deliver _ hc.receivers_registered

theorem broadcastWhere (sel : Connection → Bool) (e : Event) :
    (h.broadcastWhere sel e).1.Consistent :=
  hc.deliver _ (hc.receivers_registered.filter _)

theorem broadcastToChannel (channel : ChannelId) (e : Event) :
    (h.broadcastToChannel channel e).1.Consistent :=
  hc.broadcastWhere _ e

theorem sendToUser (user : UserId) (e : Event) : (h.sendToUser user e).1.Consistent :=
  hc.deliver _ (hc.receivers_registered.filter _)

theorem broadcastToRoom (channel : ChannelId) (e : Event) (exclude : Option ConnectionId) :
    (h.broadcastToRoom channel e exclude).1.Consistent :=
  hc.deliver _ ((hc.receivers_members channel).filter _)

/-- A connection that is gone gets nothing, so that nothing comes of sending to it. -/
theorem sendTo {p : Peer} (hp : h.Knows p) (e : Event) : (h.sendTo p e).1.Consistent := by
  by_cases hreg : p ∈ h.registered
  · exact hc.deliver _ (receivers_singleton hreg)
  · rw [sendTo_of_not_open (hc.gone p hp hreg).2.1]
    exact hc.count _

theorem unregister {p : Peer} (hp : h.Knows p) : (h.unregister p).1.Consistent := by
  -- `p` is off the set, and nothing that is said while it leaves brings it back
  have hannounced (channels : List ChannelId) :
      ∀ g : Hub, g.ConsistentBut (some p) → g.Knows p → p ∉ g.registered →
        ((channels.foldl (fun g channel => announceLeft Hub.deliver p.user channel g) g).update p
          Connection.markClosed).Consistent := by
    induction channels with
    | nil => exact fun g hg hknown hout => hg.markClosed hknown rfl hout
    | cons channel channels ih =>
      intro g hg hknown hout
      have hg' : Grows (fun _ _ => True) g (Hub.announceLeft Hub.deliver p.user channel g) :=
        Grows.announceLeft (fun _ _ _ => trivial)
          (fun _ _ h => Grows.deliver (fun _ _ _ => trivial) h) p.user channel g
      exact ih _ (hg.announceLeft p.user channel) ((hg'.peer? p.handle).trans hknown)
        fun hin => hout (hg'.registered.subset hin)
  rw [Hub.unregister, remove_eq]
  exact hannounced _ _ (hc.detach hp rfl) ((detach_peer? p.handle).trans hp)
    fun hreg => ((mem_detach_registered (hc.distinguishes hp)).mp hreg).2 rfl

/-- Only a registered connection gets into a room. -/
theorem enter {p : Peer} (hp : h.Knows p) (hopen : (h.connection p).queue.closed = false)
    (channel : ChannelId) :
    ({ h with rooms := ⟨Rooms.insert channel p h.rooms.rooms⟩ } : Hub).Consistent := by
  have hreg := hc.mem_registered_of_queue_open hp hopen
  have hentered := hc.toQuiescent.enter hreg channel
  exact hc.withRooms hentered.rooms hentered.members

theorem joinRoom {p : Peer} (hp : h.Knows p) (channel : ChannelId) :
    (h.joinRoom p channel).1.Consistent := by
  cases hclosed : (h.connection p).queue.closed with
  | true =>
    simp only [Hub.joinRoom, Rooms.join, hclosed, if_true]
    exact hc
  | false =>
    simp only [Hub.joinRoom, Rooms.join, hclosed, Bool.false_eq_true, if_false]
    have hentered := hc.enter hp hclosed channel
    split
    next => exact hentered.sendTo hp _
    next => exact ((hentered.sendTo hp _).broadcastToRoom _ _ _).broadcast _

theorem exit (channel : ChannelId) (id : ConnectionId) :
    ({ h with rooms := (h.rooms.leave channel id).1 } : Hub).Consistent := by
  have hleft := hc.toQuiescent.exit channel id
  exact hc.withRooms hleft.rooms hleft.members

theorem leaveRoom (p : Peer) (channel : ChannelId) : (h.leaveRoom p channel).1.Consistent := by
  simp only [Hub.leaveRoom]
  split
  next => exact (hc.exit channel p.id).announceLeft p.user channel
  next => exact hc

theorem relaySignal (p : Peer) (kind : SignalKind) (s : Signal) :
    (h.relaySignal p kind s).1.Consistent := by
  rw [Hub.relaySignal]
  split
  next => exact hc.count fun n => { n with signalsDropped := n.signalsDropped + 1 }
  next =>
    exact (hc.sendToUser s.target _).count fun n =>
      { n with signalsRelayed := n.signalsRelayed + 1 }

theorem reportMedia (p : Peer) (r : MediaReport) : (h.reportMedia p r).Consistent := by
  rw [Hub.reportMedia]
  split
  next => exact hc.broadcastToRoom _ _ _
  next => exact hc

theorem handle {p : Peer} (hp : h.Knows p) (c : Command) : (h.handle p c).Consistent := by
  unfold Hub.handle
  split
  next =>
    cases c with
    | subscribe channel =>
      exact hc.update hp (fun _ => rfl) rfl rfl fun _ hfits => ⟨hfits.capacity_eq, hfits.length_le⟩
    | typing channel => exact hc.broadcastToChannel channel _
    | voiceJoin channel => exact hc.joinRoom hp channel
    | voiceLeave channel => exact hc.leaveRoom p channel
    | signal kind s => exact hc.relaySignal p kind s
    | mediaState report => exact hc.reportMedia p report
    | ping => exact hc.sendTo hp _
    | unknown tag => exact hc
  next => exact hc

theorem handleText {p : Peer} (hp : h.Knows p) {text : String} {h' : Hub}
    (hok : h.handleText p text = .ok h') : h'.Consistent := by
  rw [Hub.handleText] at hok
  cases hdecode : Command.decode text with
  | error e => rw [hdecode] at hok; cases hok
  | ok c => rw [hdecode] at hok; cases hok; exact hc.handle hp c

theorem publishMessage (message : Json.Raw) (digest : Event.Activity) :
    (h.publishMessage message digest).Consistent :=
  (hc.broadcastToChannel _ _).broadcast _

theorem publishServerEvent {e : Event} {r : Hub × Nat}
    (hok : h.publishServerEvent e = .ok r) : r.1.Consistent := by
  rw [Hub.publishServerEvent] at hok
  split at hok
  next => cases hok; exact hc.broadcast e
  next => cases hok

end Consistent

/-- Operations of the hub and of the readers.  The others reach past the hub, into a connection or
into the rooms. -/
def Operation.throughHub : Operation → Bool
  | .create .. | .register _ | .activate _ | .beginClose _ | .closeQueue _ | .markClosed _
  | .send .. | .view .. | .enterRoom .. | .exitRoom .. | .exitRooms _ => false
  | _ => true

theorem consistent_new (limits : Limits) : (new limits).Consistent where
  known := by simp [new]
  ids_nodup := by simp [new]
  rooms := Rooms.valid_empty
  members := by simp [new, Rooms.empty]
  active := by simp [new]
  queue_open := by simp [new]
  pending := rfl
  draining := rfl
  numbered := by simp [new, peer?]
  fresh := by simp [new, Knows, peer?]
  gone := by simp [new, Knows, peer?]
  fits := by simp [new, Knows, peer?]

namespace Consistent

variable {h : Hub} (hc : h.Consistent)

include hc

theorem keyed : h.Keyed where
  numbered := hc.numbered
  known := hc.known
  ids_nodup := hc.ids_nodup
  started := by
    intro p hp
    rw [hc.active p hp]
    exact Lifecycle.noConfusion

/-- An operation on a connection of the table. -/
theorem withPeer (i : Nat) {f : Peer → Hub × Outcome}
    (hf : ∀ p, h.Knows p → (f p).1.Consistent) : (h.withPeer i f).1.Consistent := by
  rw [Hub.withPeer]
  split
  next p hp => exact hf p (hc.keyed.knows_of_peer? hp)
  next => exact hc

theorem takeFrame {p : Peer} (hp : h.Knows p) {f : Frame} {q : Queue}
    (htake : (h.connection p).queue.take = .frame f q) :
    (h.update p fun c => { c with queue := q }).Consistent := by
  obtain ⟨hwaiting, hrest⟩ := Queue.eq_cons_of_take htake
  have hlt : q.waiting.length < (h.connection p).queue.waiting.length := by
    rw [hwaiting]
    exact Nat.lt_succ_self _
  rw [hrest]
  exact hc.update hp (fun _ => rfl) rfl rfl fun _ hfits =>
    ⟨hfits.capacity_eq, Nat.le_trans (Nat.le_of_lt hlt) hfits.length_le⟩

theorem abandon {p : Peer} (hp : h.Knows p) :
    (h.update p fun c => { c with queue := c.queue.abandon }).Consistent :=
  hc.update hp (fun _ => rfl) rfl rfl fun _ hfits => ⟨hfits.capacity_eq, Nat.zero_le _⟩

theorem perform {op : Operation} (hop : op.throughHub = true) :
    (h.perform op).1.Consistent := by
  cases op with
  | connect user =>
    simp only [Hub.perform]
    split
    next hok => exact hc.connect hok
    next => exact hc
  | unregister c => exact hc.withPeer c fun p hp => hc.unregister hp
  | take c =>
    refine hc.withPeer c fun p hp => ?_
    split
    next htake => exact hc.takeFrame hp htake
    next => exact hc
  | abandon c => exact hc.withPeer c fun p hp => hc.abandon hp
  | handle c command => exact hc.withPeer c fun p hp => hc.handle hp command
  | handleText c text =>
    refine hc.withPeer c fun p hp => ?_
    split
    next hok => exact hc.handleText hp hok
    next => exact hc
  | join c channel => exact hc.withPeer c fun p hp => hc.joinRoom hp channel
  | leave c channel => exact hc.withPeer c fun p _ => hc.leaveRoom p channel
  | relay c kind signal => exact hc.withPeer c fun p _ => hc.relaySignal p kind signal
  | broadcast e => exact hc.broadcast e
  | broadcastToChannel channel e => exact hc.broadcastToChannel channel e
  | sendToUser user e => exact hc.sendToUser user e
  | broadcastToRoom channel e exclude =>
    cases exclude with
    | none => exact hc.broadcastToRoom channel e none
    | some c => exact hc.withPeer c fun p _ => hc.broadcastToRoom channel e (some p.id)
  | sendTo c e => exact hc.withPeer c fun p hp => hc.sendTo hp e
  | publishMessage message digest => exact hc.publishMessage message digest
  | publishEdit channel message => exact hc.broadcastToChannel channel _
  | publishDeletion channel message => exact hc.broadcastToChannel channel _
  | publishReactions channel reactions => exact hc.broadcastToChannel channel _
  | publishServerEvent e =>
    simp only [Hub.perform]
    split
    next hok => exact hc.publishServerEvent hok
    next => exact hc
  | create | register | activate | beginClose | closeQueue | markClosed | send | view
  | enterRoom | exitRoom | exitRooms => cases hop

theorem run {ops : List Operation} (hops : ∀ op ∈ ops, op.throughHub = true) :
    (h.run ops).Consistent := by
  induction ops generalizing h with
  | nil => exact hc
  | cons op ops ih =>
    exact ih (hc.perform (hops op List.mem_cons_self)) fun o ho =>
      hops o (List.mem_cons_of_mem op ho)

theorem knows_of_mem_table {c : Connection} (hmem : c ∈ h.table) :
    h.Knows c.peer ∧ h.connection c.peer = c := by
  obtain ⟨i, hi⟩ := List.mem_iff_getElem?.mp hmem
  have hpeer : h.peer? i = some c.peer := by
    rw [peer?, hi]
    rfl
  have hhandle := hc.numbered i c.peer hpeer
  refine ⟨hc.keyed.knows_of_peer? hpeer, ?_⟩
  rw [connection, hhandle, hi]
  rfl

end Consistent

/-- Whatever has been asked of a hub, nobody waits to be removed, the set holds exactly the
connections that are active and can be sent to, the rooms hold nobody else, and all others that
were ever made are closed for good. -/
theorem history_consistent (limits : Limits) {ops before : List Operation}
    (hops : ∀ op ∈ ops, op.throughHub = true) (hbefore : before <+: ops) :
    let h := run (new limits) before
    (h.pending = [] ∧ h.draining = false) ∧
      (h.registered.map Peer.id).Nodup ∧
      (∀ p ∈ h.registered, h.Knows p ∧ (h.connection p).state = .active ∧
        (h.connection p).queue.closed = false) ∧
      (∀ r ∈ h.rooms.rooms, r.members ≠ [] ∧ ∀ p ∈ r.members, p ∈ h.registered) ∧
      (∀ c ∈ h.table, c.peer ∉ h.registered →
        c.state = .closed ∧ c.queue.closed = true ∧
          ∀ channel, h.rooms.contains channel c.peer.id = false) ∧
      (∀ c ∈ h.table, c.queue.capacity = max 1 h.limits.queueCapacity ∧
        c.queue.waiting.length ≤ c.queue.capacity) := by
  intro h
  have hc : h.Consistent :=
    (consistent_new limits).run fun op hop => hops op (hbefore.subset hop)
  refine ⟨⟨hc.pending, hc.draining⟩, hc.ids_nodup, ?_, ?_, ?_, ?_⟩
  · exact fun p hp => ⟨hc.known p hp, hc.active p hp, hc.queue_open p hp⟩
  · exact fun r hr => ⟨hc.rooms.inhabited r hr, hc.members r hr⟩
  · intro c hmem hout
    obtain ⟨hknown, hself⟩ := hc.knows_of_mem_table hmem
    obtain ⟨hstate, _, hqueue⟩ := hc.gone c.peer hknown hout
    rw [hself] at hstate hqueue
    refine ⟨hstate (by simp), hqueue, fun channel => ?_⟩
    rw [Bool.eq_false_iff]
    intro hin
    have hdistinct := hc.rooms_distinguishes (hc.distinguishes hknown)
    exact hout (hc.mem_registered_of_mem_members
      ((Rooms.contains_iff hdistinct channel).mp hin))
  · intro c hmem
    obtain ⟨hknown, hself⟩ := hc.knows_of_mem_table hmem
    have hfits := hc.fits c.peer hknown
    rw [hself] at hfits
    exact ⟨hfits.capacity_eq, hfits.capacity_eq ▸ hfits.length_le⟩

/-- With room for one frame, nobody who joins stays: the list of users fills the queue, and the news
of the joining is one too many. -/
theorem joiner_is_gone :
    ((run (new ⟨1, 4⟩) [.connect "ann", .join 0 "hall"]).pending = [] ∧
      (run (new ⟨1, 4⟩) [.connect "ann", .join 0 "hall"]).draining = false) ∧
      ∀ c ∈ (run (new ⟨1, 4⟩) [.connect "ann", .join 0 "hall"]).table,
        c.peer ∉ (run (new ⟨1, 4⟩) [.connect "ann", .join 0 "hall"]).registered →
          c.state = .closed ∧ c.queue.closed = true ∧ ∀ channel,
            (run (new ⟨1, 4⟩) [.connect "ann", .join 0 "hall"]).rooms.contains channel
              c.peer.id = false := by
  have hops : ∀ op ∈ [Operation.connect "ann", .join 0 "hall", .broadcast .pong],
      op.throughHub = true := by decide
  have hbefore : [Operation.connect "ann", .join 0 "hall"] <+:
      [.connect "ann", .join 0 "hall", .broadcast .pong] := ⟨[.broadcast .pong], rfl⟩
  obtain ⟨hidle, _, _, _, hgone, _⟩ := history_consistent ⟨1, 4⟩ hops hbefore
  exact ⟨hidle, hgone⟩

end Hub

end ChatHub
