import ChatHub.Proofs.Hub.Farewell
import ChatHub.Proofs.Hub.Refusal
/-!
A closed queue is the end.  The hub closes a queue only when it takes the connection down, and it
goes all the way then: after a delivery or a command nothing is left of those whose queue it has
closed, whatever has been done to them before.
-/

namespace ChatHub

theorem Connection.closed_offer (f : Frame) (c : Connection) :
    (c.offer f).queue.closed = c.queue.closed := by
  cases hopen : c.isOpen with
  | false => rw [offer_of_not_open f hopen]
  | true =>
    by_cases hfree : 0 < c.queue.free
    · rw [offer_of_free_pos f hopen hfree]
      rfl
    · rw [offer_of_free_eq_zero f hopen (Nat.eq_zero_of_not_pos hfree), queue_beginClose]

namespace Hub

/-- If the queue of `c` is closed there is nothing left of `c` but its entry in the table. -/
def Final (c : Peer) (h : Hub) : Prop := (h.connection c).queue.closed = true → h.Spent c

section Offers

variable {h h' : Hub} {c : Peer}

/-- What an update leaves as it is at every connection, it leaves so at this one. -/
theorem read_update {α : Type} (read : Connection → α) {p : Peer} {f : Connection → Connection}
    (hf : ∀ c, read (f c) = read c) :
    read ((h.update p f).connection c) = read (h.connection c) := by
  by_cases heq : c.handle = p.handle
  · simp only [connection, update, List.getElem?_modify, heq, if_true]
    cases h.table[p.handle]? with
    | none => rfl
    | some c => exact hf c
  · rw [connection_update_of_ne p c f h heq]

theorem closed_update {p : Peer} {f : Connection → Connection}
    (hf : ∀ c, (f c).queue.closed = c.queue.closed) :
    ((h.update p f).connection c).queue.closed = (h.connection c).queue.closed :=
  read_update (fun c => c.queue.closed) hf

theorem closed_offer (f : Frame) (ts : List Peer) (h : Hub) :
    ((offer f ts h).1.connection c).queue.closed = (h.connection c).queue.closed := by
  change ((push f ts h).hub.connection c).queue.closed = _
  rw [push_hub]
  induction ts generalizing h with
  | nil => rfl
  | cons p ts ih => exact (ih _).trans (closed_update (Connection.closed_offer f))

theorem closed_announce (as : List Announcement) (h : Hub) :
    ((announce as h).connection c).queue.closed = (h.connection c).queue.closed := by
  induction as generalizing h with
  | nil => rfl
  | cons a as ih => rw [announce_cons, ih, closed_offer]

theorem grows_announce (as : List Announcement) (h : Hub) :
    Grows (fun _ _ => True) h (announce as h) := by
  induction as generalizing h with
  | nil => exact .refl _ h
  | cons a as ih => exact (Grows.offer h fun _ _ => trivial).trans (ih _)

/-- What is spent stays so while nobody is registered or let into a room. -/
theorem Spent.later {new : Nat → Frame → Prop} (hs : h.Spent c) (hg : Grows new h h')
    (hsub : ∀ channel, h'.rooms.members channel ⊆ h.rooms.members channel) : h'.Spent c where
  state := state_closed_of_rank_le (hs.state ▸ (hg.connection c).rank_le)
  queue_closed := (hg.connection c).closed hs.queue_closed
  unregistered := by
    rw [isRegistered_eq_false_iff]
    exact fun q hq => isRegistered_eq_false_iff.mp hs.unregistered q (hg.registered.subset hq)
  outside := by
    intro channel
    rw [Bool.eq_false_iff]
    intro hin
    exact Bool.false_ne_true
      ((hs.outside channel).symm.trans (Rooms.contains_of_subset (hsub channel) hin))

theorem Final.later {new : Nat → Frame → Prop} (hf : h.Final c) (hg : Grows new h h')
    (hsub : ∀ channel, h'.rooms.members channel ⊆ h.rooms.members channel)
    (hclosed : (h'.connection c).queue.closed = (h.connection c).queue.closed) : h'.Final c :=
  fun hc => (hf (hclosed ▸ hc)).later hg hsub

/-- Counts, limits and the list of those to be removed make no difference. -/
theorem Final.of_eq (hf : h.Final c) (htable : h'.table = h.table)
    (hregistered : h'.registered = h.registered) (hrooms : h'.rooms = h.rooms) : h'.Final c := by
  obtain ⟨_, _, _, _, _, _, _⟩ := h'
  subst htable hregistered hrooms
  exact fun hc => ⟨(hf hc).state, (hf hc).queue_closed, (hf hc).unregistered, (hf hc).outside⟩

theorem Final.update (hf : h.Final c) {p : Peer} {f : Connection → Connection}
    (hstate : ∀ c, (f c).state = c.state) (hclosed : ∀ c, (f c).queue.closed = c.queue.closed) :
    (h.update p f).Final c := by
  intro hc
  have hs := hf ((closed_update hclosed).symm.trans hc)
  exact ⟨(read_update Connection.state hstate).trans hs.state, hc, hs.unregistered, hs.outside⟩

theorem Final.offer (hf : h.Final c) (f : Frame) (ts : List Peer) : (offer f ts h).1.Final c := by
  have hg : Grows (fun _ _ => True) h (Hub.offer f ts h).1 := .offer h fun _ _ => trivial
  refine hf.later hg (fun channel => ?_) (closed_offer f ts h)
  rw [offer_rooms]
  exact List.Subset.refl _

end Offers

section Eviction

variable {h : Hub} {c d : Peer}

/-- The one who is evicted is spent after it, and for the others little changes. -/
theorem Final.evict (hf : h.Final c) (hc : h.Knows c) (hd : h.Knows d) (hrooms : h.rooms.Valid) :
    (evict d h).Final c := by
  let told := announce ((h.rooms.leaveAll d.id).2.flatMap ((h.detach d).departure d.user))
    (h.detach d)
  have hgrows : Grows (fun _ _ => True) (h.detach d) told := grows_announce _ _
  have hrooms_eq : told.rooms = (h.rooms.leaveAll d.id).1 := announce_rooms _ _
  suffices hdone : Final c (told.update d Connection.markClosed) by
    simp only [Hub.evict, remove_eq, foldl_announceLeft]
    split
    next => exact hdone.of_eq rfl rfl rfl
    next => exact hdone
  by_cases heq : c = d
  · subst heq
    intro _
    have hknows : told.Knows c :=
      (hgrows.peer? c.handle).trans ((detach_peer? c.handle).trans hc)
    have hself := connection_update_self c Connection.markClosed told hknows
    constructor
    case state => rw [hself]; rfl
    case queue_closed =>
      rw [hself]
      exact (hgrows.connection c).closed (by rw [detach_connection_self]; rfl)
    case unregistered =>
      rw [isRegistered_eq_false_iff]
      intro q hq
      exact bne_iff_ne.mp (List.mem_filter.mp (hgrows.registered.subset hq)).2
    case outside =>
      intro channel
      change told.rooms.contains channel c.id = false
      rw [hrooms_eq]
      exact Rooms.contains_leaveAll hrooms channel c.id
  · have hne : c.handle ≠ d.handle := fun hhandle => heq (hc.eq_of_handle hd hhandle)
    have hall : Grows (fun _ _ => True) h (told.update d Connection.markClosed) :=
      ((Grows.detach _ d h).trans hgrows).trans
        (.update _ d told (fun _ => rfl) fun c => .markClosed _ c)
    refine hf.later hall (fun channel => ?_) ?_
    · change told.rooms.members channel ⊆ _
      rw [hrooms_eq]
      exact Rooms.members_leaveAll_subset hrooms
    · rw [connection_update_of_ne d c _ told hne, closed_announce, detach_connection_of_ne hne]

variable {own : Nat → Frame → Prop} {h₀ : Hub} (ht : h₀.Tidy) (hc : h₀.Knows c)

include ht hc

theorem Final.evictPending (hcourse : Course own h₀ h) (hf : h.Final c) :
    h.evictPending.Final c := by
  induction h using Hub.evictPending.induct with
  | case1 h hnil =>
    rw [evictPending_of_nil hnil]
    exact hf
  | case2 h d rest hcons ih =>
    have hpopped : Course own h₀ { h with pending := rest } :=
      hcourse.extend (.of_table_eq rfl rfl (.refl _)) hcourse.rooms (fun _ => List.Subset.refl _)
        fun e he => Or.inl (hcons ▸ List.mem_cons_of_mem d he)
    obtain ⟨hknown, hopen, _⟩ := hcourse.listed d (hcons ▸ List.mem_cons_self)
    have hf' : Final c { h with pending := rest } := hf.of_eq rfl rfl rfl
    rw [evictPending_of_cons hcons]
    apply ih (hpopped.evict ht hknown hopen)
    exact hf'.evict ((hcourse.grows.peer? c.handle).trans hc)
      ((hcourse.grows.peer? d.handle).trans hknown) hcourse.rooms

end Eviction

/-- What every operation of the hub's own keeps: it is tidy, and a closed queue is the end of
`c`. -/
structure Firm (c : Peer) (h : Hub) : Prop where
  tidy : h.Tidy
  known : h.Knows c
  final : h.Final c

namespace Firm

variable {h : Hub} {c : Peer} (hf : h.Firm c)

include hf

theorem deliver (f : Frame) {ts : List Peer} (hts : ∀ p ∈ ts, h.Knows p) :
    (deliver f ts h).1.Firm c := by
  have hcalm : Calm (fun _ _ => True) h (Hub.deliver f ts h).1 :=
    (Calm.start hf.tidy _).deliver hf.tidy hts fun _ _ => trivial
  refine ⟨hcalm.tidy hf.tidy, (hcalm.grows.peer? c.handle).trans hf.known, ?_⟩
  have hoffered : (offer f ts h).1.Final c := hf.final.offer f ts
  have hcourse : Course (fun _ _ => True) h (offer f ts h).1 :=
    (Course.start hf.tidy _).offer hts fun _ _ => Or.inl trivial
  have hstarted : Final c { (offer f ts h).1 with draining := true } := hoffered.of_eq rfl rfl rfl
  simp only [Hub.deliver, drain]
  split
  next => exact hoffered
  next =>
    split
    next => exact hoffered
    next =>
      have hdone := hstarted.evictPending hf.tidy hf.known (hcourse.setDraining true)
      exact hdone.of_eq rfl rfl rfl

theorem count (f : Counters → Counters) : (h.count f).Firm c where
  tidy := ((Calm.start hf.tidy fun _ _ => True).count f).tidy hf.tidy
  known := hf.known
  final := hf.final.of_eq rfl rfl rfl

theorem broadcast (e : Event) : (h.broadcast e).1.Firm c := hf.deliver _ hf.tidy.known

theorem broadcastWhere (sel : Connection → Bool) (e : Event) : (h.broadcastWhere sel e).1.Firm c :=
  hf.deliver _ fun p hp => hf.tidy.known p (List.mem_filter.mp hp).1

theorem sendToUser (user : UserId) (e : Event) : (h.sendToUser user e).1.Firm c :=
  hf.deliver _ fun p hp => hf.tidy.known p (List.mem_filter.mp hp).1

theorem broadcastToRoom (channel : ChannelId) (e : Event) (exclude : Option ConnectionId) :
    (h.broadcastToRoom channel e exclude).1.Firm c :=
  hf.deliver _ fun p hp => hf.tidy.members_known channel p (List.mem_filter.mp hp).1

theorem sendTo {p : Peer} (hp : h.Knows p) (e : Event) : (h.sendTo p e).1.Firm c :=
  hf.deliver _ fun _ hq => List.mem_singleton.mp hq ▸ hp

theorem announceLeft (user : UserId) (channel : ChannelId) :
    (Hub.announceLeft Hub.deliver user channel h).Firm c := by
  have hroom := hf.deliver (leftFrame channel user) (hf.tidy.members_known channel)
  exact hroom.deliver _ hroom.tidy.known

/-- Nobody gets into a room under the name of `c`, if that is its own, when its queue is closed. -/
theorem enter (hown : h.OwnName c) {p : Peer} (hp : h.Knows p) (channel : ChannelId)
    (hopen : (h.connection p).queue.closed = false) :
    Firm c { h with rooms := ⟨Rooms.insert channel p h.rooms.rooms⟩ } := by
  have hmove : h.move (.enter p channel) =
      { h with rooms := ⟨Rooms.insert channel p h.rooms.rooms⟩ } := by
    simp only [move, Rooms.join, hopen, Bool.false_eq_true, if_false]
  refine ⟨hmove ▸ hf.tidy.enter hp channel, hf.known, fun hclosed => ?_⟩
  have hspent := hf.final hclosed
  refine ⟨hspent.state, hspent.queue_closed, hspent.unregistered, fun room => ?_⟩
  rw [Bool.eq_false_iff, Ne, Rooms.contains_iff_exists]
  rintro ⟨m, hm, hid⟩
  rcases Rooms.mem_members_insert.mp hm with ⟨_, rfl⟩ | ⟨hold, _⟩
  · obtain rfl := hown m hp hid
    exact Bool.false_ne_true (hopen.symm.trans hspent.queue_closed)
  · exact Bool.false_ne_true ((hspent.outside room).symm.trans
      (Rooms.contains_iff_exists.mpr ⟨m, hold, hid⟩))

theorem exit (channel : ChannelId) (id : ConnectionId) :
    Firm c { h with rooms := (h.rooms.leave channel id).1 } := by
  have hsub (room : ChannelId) :
      (h.rooms.leave channel id).1.members room ⊆ h.rooms.members room :=
    fun _ hm => ((Rooms.mem_members_leave hf.tidy.rooms).mp hm).1
  have hadvances : Advances (.leave c.handle channel) h
      { h with rooms := (h.rooms.leave channel id).1 } :=
    hf.tidy.advances_withRooms (hf.tidy.rooms.leave channel id) hsub
  have hgrows : Grows (fun _ _ => True) h { h with rooms := (h.rooms.leave channel id).1 } :=
    .of_table_eq rfl rfl (.refl _)
  exact ⟨hadvances.tidy, hf.known, hf.final.later hgrows hsub rfl⟩

theorem view {p : Peer} (channel : Option ChannelId) :
    (h.update p (Connection.view channel)).Firm c := by
  have hgrows : Grows (fun _ _ => True) h (h.update p (Connection.view channel)) :=
    .update _ p h (fun _ => rfl) fun c => .view _ channel c
  refine ⟨hf.tidy.update (fun _ => rfl) fun _ => Nat.le_refl _,
    (hgrows.peer? c.handle).trans hf.known, ?_⟩
  exact hf.final.later hgrows (fun _ => List.Subset.refl _) (closed_update fun _ => rfl)

theorem joinRoom (hown : h.OwnName c) {p : Peer} (hp : h.Knows p) (channel : ChannelId) :
    (h.joinRoom p channel).1.Firm c := by
  cases hclosed : (h.connection p).queue.closed with
  | true =>
    simp only [Hub.joinRoom, Rooms.join, hclosed, if_true]
    exact hf
  | false =>
    have hsent (e : Event) := (hf.enter hown hp channel hclosed).sendTo hp e
    simp only [Hub.joinRoom, Rooms.join, hclosed, Bool.false_eq_true, if_false]
    split
    next => exact hsent _
    next => exact ((hsent _).broadcastToRoom _ _ _).broadcast _

/-- Whatever the command, whoever's queue is closed by it is spent. -/
theorem handle (hown : h.OwnName c) {p : Peer} (hp : h.Knows p) (command : Command) :
    (h.handle p command).Firm c := by
  unfold Hub.handle
  split
  next =>
    cases command with
    | subscribe channel => exact hf.view channel
    | typing channel => exact hf.broadcastWhere _ _
    | voiceJoin channel => exact hf.joinRoom hown hp channel
    | voiceLeave channel =>
      simp only [leaveRoom]
      split
      next => exact (hf.exit channel p.id).announceLeft _ _
      next => exact hf
    | signal kind s =>
      by_cases hmay : h.MaySignal p s
      · simp only [relaySignal_of_maySignal hmay]
        exact (hf.sendToUser _ _).count _
      · simp only [relaySignal_of_not_maySignal hmay]
        exact hf.count _
    | mediaState report =>
      simp only [reportMedia]
      split
      next => exact hf.broadcastToRoom _ _ _
      next => exact hf
    | ping => exact hf.sendTo hp _
    | unknown tag => exact hf
  next => exact hf

end Firm

end Hub

end ChatHub
