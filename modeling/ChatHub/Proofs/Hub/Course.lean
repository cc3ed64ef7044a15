import ChatHub.Proofs.Hub.Signaling
/-!
What a delivery comes to in any state, however the hub has been used.  Two connections may go by
one name and members of a room need not be registered, so it cannot be said who will go; but whoever
goes was open before, and a room is told of somebody only when it has lost his name.
-/

namespace ChatHub

namespace Connection.Grows

variable {new new' : Frame → Prop} {c c' : Connection}

theorem mono (hg : c.Grows new c') (hsub : ∀ f, new f → new' f) : c.Grows new' c' := by
  obtain ⟨fs, hfs, hnew⟩ := hg.waiting
  exact ⟨hg.rank_le, hg.capacity, hg.abandoned, hg.closed, fs, hfs,
    fun f hf => hsub f (hnew f hf)⟩

theorem not_open (hg : c.Grows new c') (hc : c.isOpen = false) : c'.isOpen = false :=
  not_open_of_rank_le hg.rank_le hc

theorem isOpen (hg : c.Grows new c') (hc : c'.isOpen = true) : c.isOpen = true := by
  by_contra hclosed
  rw [hg.not_open (Bool.eq_false_iff.mpr hclosed)] at hc
  cases hc

end Connection.Grows

namespace Rooms

variable {rs : Rooms} {channel : ChannelId} {id : ConnectionId}

theorem contains_iff_exists :
    rs.contains channel id = true ↔ ∃ m ∈ rs.members channel, m.id = id := by
  simp only [contains, List.any_eq_true, beq_iff_eq]

theorem contains_of_subset {rs' : Rooms} (hsub : rs'.members channel ⊆ rs.members channel)
    (hin : rs'.contains channel id = true) : rs.contains channel id = true := by
  obtain ⟨m, hm, hid⟩ := contains_iff_exists.mp hin
  exact contains_iff_exists.mpr ⟨m, hsub hm, hid⟩

theorem contains_of_mem_leaveAll (hrs : rs.Valid) (hin : channel ∈ (rs.leaveAll id).2) :
    rs.contains channel id = true := by
  obtain ⟨r, hr, rfl⟩ := List.mem_map.mp (mem_sortNames.mp hin)
  obtain ⟨hroom, hany⟩ := List.mem_filter.mp hr
  rw [contains, members_of_mem hrs.channels_nodup hroom]
  exact hany

theorem mem_leaveAll_of_contains (hin : rs.contains channel id = true) :
    channel ∈ (rs.leaveAll id).2 := by
  obtain ⟨m, hm, hid⟩ := contains_iff_exists.mp hin
  obtain ⟨r, hr, rfl, hmem⟩ := exists_room_of_mem_members hm
  refine mem_sortNames.mpr (List.mem_map_of_mem ?_)
  refine List.mem_filter.mpr ⟨hr, List.any_eq_true.mpr ⟨m, hmem, ?_⟩⟩
  exact beq_iff_eq.mpr hid

theorem members_leaveAll_subset (hrs : rs.Valid) :
    (rs.leaveAll id).1.members channel ⊆ rs.members channel := by
  intro m hm
  rw [leaveAll_rooms, mem_members_restrict _ hrs] at hm
  exact hm.1

theorem contains_leaveAll (hrs : rs.Valid) (channel : ChannelId) (id : ConnectionId) :
    (rs.leaveAll id).1.contains channel id = false := by
  rw [Bool.eq_false_iff, Ne, contains_iff_exists]
  rintro ⟨m, hm, hid⟩
  rw [leaveAll_rooms, mem_members_restrict _ hrs] at hm
  exact absurd hid (bne_iff_ne.mp hm.2)

end Rooms

namespace Hub

theorem Grows.mono {new new' : Nat → Frame → Prop} {h h' : Hub} (hg : Grows new h h')
    (hsub : ∀ i f, new i f → new' i f) : Grows new' h h' :=
  ⟨hg.limits, hg.peer?, hg.registered, fun p => (hg.connection p).mono (hsub p.handle)⟩

/-- Those that a frame starts to close, even if it goes to somebody twice. -/
theorem mem_push_dead {f : Frame} {ps : List Peer} {h : Hub} {d : Peer}
    (hd : d ∈ (push f ps h).dead) :
    d ∈ ps ∧ (h.connection d).isOpen = true ∧
      ((push f ps h).hub.connection d).isOpen = false := by
  induction ps generalizing h with
  | nil => exact absurd hd List.not_mem_nil
  | cons p ps ih =>
    have hoffered : Grows (fun _ _ => True) h (h.update p (Connection.offer f)) :=
      .update _ p h (peer_offer f) fun c => .offer trivial c
    have hrest (hin : d ∈ (push f ps (h.update p (Connection.offer f))).dead) :
        d ∈ p :: ps ∧ (h.connection d).isOpen = true ∧
          ((push f ps (h.update p (Connection.offer f))).hub.connection d).isOpen = false := by
      obtain ⟨hmem, hbefore, hafter⟩ := ih hin
      exact ⟨List.mem_cons_of_mem p hmem, (hoffered.connection d).isOpen hbefore, hafter⟩
    simp only [push_cons] at hd ⊢
    split at hd
    next hfull =>
      rcases List.mem_cons.mp hd with rfl | hin
      · have hclosing : ((h.update d (Connection.offer f)).connection d).isOpen = false := by
          rw [connection_update_of_handle_eq d d _ h rfl (offer_absent f), Connection.isOpen_offer,
            hfull.2]
          exact Bool.and_false _
        have hlater : Grows (fun _ _ => True) (h.update d (Connection.offer f))
            (push f ps (h.update d (Connection.offer f))).hub :=
          .push _ fun _ _ => trivial
        exact ⟨List.mem_cons_self, hfull.1, (hlater.connection d).not_open hclosing⟩
      · exact hrest hin
    next => exact hrest hd

/-- At rest between two operations of any history: members of rooms, like those who are registered,
are in the table, and nobody waits to be removed. -/
structure Tidy (h : Hub) : Prop extends h.Keyed where
  rooms : h.rooms.Valid
  members_known : ∀ channel, ∀ m ∈ h.rooms.members channel, h.Knows m
  pending : h.pending = []
  draining : h.draining = false

/-- The connection has been taken down on the way from `h` to `h'`. -/
structure Ousted (h h' : Hub) (d : Peer) : Prop where
  known : h.Knows d
  opened : (h.connection d).isOpen = true
  closed : (h'.connection d).isOpen = false
  queue_closed : (h'.connection d).queue.closed = true
  unregistered : h'.isRegistered d = false

/-- So has the room, which had the name of the connection, lost it. -/
structure Vacated (h h' : Hub) (d : Peer) (channel : ChannelId) : Prop extends Ousted h h' d where
  inside : h.rooms.contains channel d.id = true
  outside : h'.rooms.contains channel d.id = false

/-- The frame tells a room of somebody who has been taken down since `h`. -/
def TellsOusted (h h' : Hub) (f : Frame) : Prop :=
  ∃ d channel, Vacated h h' d channel ∧ f = leftFrame channel d.user

section Later

variable {h₀ h h' : Hub} {new : Nat → Frame → Prop}

theorem isRegistered_eq_false_iff {d : Peer} :
    h.isRegistered d = false ↔ ∀ q ∈ h.registered, q.id ≠ d.id := by
  simp only [isRegistered, List.any_eq_false, beq_iff_eq]

/-- What is lost stays lost. -/
theorem Vacated.later {d : Peer} {channel : ChannelId} (hv : Vacated h₀ h d channel)
    (hg : Grows new h h') (hsub : h'.rooms.members channel ⊆ h.rooms.members channel) :
    Vacated h₀ h' d channel where
  known := hv.known
  opened := hv.opened
  closed := (hg.connection d).not_open hv.closed
  queue_closed := (hg.connection d).closed hv.queue_closed
  unregistered := by
    rw [isRegistered_eq_false_iff]
    exact fun q hq => isRegistered_eq_false_iff.mp hv.unregistered q (hg.registered.subset hq)
  inside := hv.inside
  outside := by
    rw [Bool.eq_false_iff]
    intro hin
    exact Bool.false_ne_true (hv.outside.symm.trans (Rooms.contains_of_subset hsub hin))

end Later

/-- The way from `h₀` to `h`, on which nobody is let in.  Beside the frames that `own` allows the
queues have got none but the news of those who were taken down, and whoever is on the list was open
at the start. -/
structure Course (own : Nat → Frame → Prop) (h₀ h : Hub) : Prop where
  grows : Grows (fun i f => own i f ∨ TellsOusted h₀ h f) h₀ h
  rooms : h.rooms.Valid
  members : ∀ channel, h.rooms.members channel ⊆ h₀.rooms.members channel
  listed : ∀ d ∈ h.pending, h₀.Knows d ∧ (h₀.connection d).isOpen = true ∧
    (h.connection d).isOpen = false

namespace Course

variable {own : Nat → Frame → Prop} {h₀ h h' : Hub}

theorem start (ht : h.Tidy) (own : Nat → Frame → Prop) : Course own h h where
  grows := .refl _ h
  rooms := ht.rooms
  members := fun _ _ hm => hm
  listed := by
    rw [ht.pending]
    exact fun d hd => absurd hd List.not_mem_nil

/-- One step further.  What it says may be of those who have gone before it. -/
theorem extend (hc : Course own h₀ h)
    (hg : Grows (fun i f => own i f ∨ TellsOusted h₀ h f) h h') (hrooms : h'.rooms.Valid)
    (hmembers : ∀ channel, h'.rooms.members channel ⊆ h.rooms.members channel)
    (hlisted : ∀ d ∈ h'.pending, d ∈ h.pending ∨ h₀.Knows d ∧ (h.connection d).isOpen = true ∧
      (h'.connection d).isOpen = false) : Course own h₀ h' := by
  have hsaid : ∀ i f, own i f ∨ TellsOusted h₀ h f → own i f ∨ TellsOusted h₀ h' f := by
    rintro i f (hown | ⟨d, channel, hv, rfl⟩)
    · exact Or.inl hown
    · exact Or.inr ⟨d, channel, hv.later hg (hmembers channel), rfl⟩
  refine ⟨(hc.grows.trans hg).mono hsaid, hrooms,
    fun channel => List.Subset.trans (hmembers channel) (hc.members channel), ?_⟩
  intro d hd
  rcases hlisted d hd with hold | ⟨hknown, hopen, hclosed⟩
  · obtain ⟨hknown, hopen, hclosed⟩ := hc.listed d hold
    exact ⟨hknown, hopen, (hg.connection d).not_open hclosed⟩
  · exact ⟨hknown, (hc.grows.connection d).isOpen hopen, hclosed⟩

/-- A step that changes neither rooms nor list. -/
theorem keep (hc : Course own h₀ h)
    (hg : Grows (fun i f => own i f ∨ TellsOusted h₀ h f) h h') (hrooms : h'.rooms = h.rooms)
    (hpending : h'.pending = h.pending) : Course own h₀ h' :=
  hc.extend hg (hrooms ▸ hc.rooms) (fun _ => hrooms ▸ List.Subset.refl _)
    fun _ hd => Or.inl (hpending ▸ hd)

theorem count (hc : Course own h₀ h) (f : Counters → Counters) : Course own h₀ (h.count f) :=
  hc.keep (.of_table_eq rfl rfl (.refl _)) rfl rfl

theorem setDraining (hc : Course own h₀ h) (b : Bool) :
    Course own h₀ { h with draining := b } :=
  hc.keep (.of_table_eq rfl rfl (.refl _)) rfl rfl

section Receivers

variable (hk : h₀.Tidy)

include hk

theorem knows_of_mem_registered (hc : Course own h₀ h) {p : Peer} (hp : p ∈ h.registered) :
    h₀.Knows p :=
  hk.known p (hc.grows.registered.subset hp)

theorem knows_of_mem_members (hc : Course own h₀ h) {p : Peer} {channel : ChannelId}
    (hp : p ∈ h.rooms.members channel) : h₀.Knows p :=
  hk.members_known channel p (hc.members channel hp)

end Receivers

/-- Whoever refuses a frame is known and was open until then. -/
theorem offer (hc : Course own h₀ h) {f : Frame} {ts : List Peer} (hts : ∀ p ∈ ts, h₀.Knows p)
    (hf : ∀ p ∈ ts, own p.handle f ∨ TellsOusted h₀ h f) :
    Course own h₀ (offer f ts h).1 := by
  apply hc.extend (.offer h hf)
  · rw [offer_rooms]
    exact hc.rooms
  · intro channel
    rw [offer_rooms]
    exact List.Subset.refl _
  · intro d hd
    simp only [Hub.offer, record, push_pending, List.mem_append, List.mem_reverse] at hd
    rcases hd with hdead | hold
    · obtain ⟨hmem, hopen, hclosed⟩ := mem_push_dead hdead
      exact Or.inr ⟨hts d hmem, hopen, hclosed⟩
    · exact Or.inl hold

theorem detach (hc : Course own h₀ h) (d : Peer) : Course own h₀ (h.detach d) := by
  apply hc.extend (.detach _ d h)
  · exact hc.rooms.restrict fun _ q => q.id != d.id
  · exact fun channel => Rooms.members_leaveAll_subset hc.rooms
  · exact fun _ hd => Or.inl hd

/-- The rooms that a connection leaves when it is taken off have lost its name by then. -/
theorem vacated_detach (hc : Course own h₀ h) {d : Peer} (hknown : h₀.Knows d)
    (hopen : (h₀.connection d).isOpen = true) {channel : ChannelId}
    (hin : channel ∈ (h.rooms.leaveAll d.id).2) : Vacated h₀ (h.detach d) d channel where
  known := hknown
  opened := hopen
  closed := by
    rw [detach_connection_self]
    exact isOpen_beginClose _
  queue_closed := by
    rw [detach_connection_self]
    rfl
  unregistered := by
    rw [isRegistered_eq_false_iff]
    exact fun q hq => bne_iff_ne.mp (List.mem_filter.mp hq).2
  inside := Rooms.contains_of_subset (hc.members channel)
    (Rooms.contains_of_mem_leaveAll hc.rooms hin)
  outside := Rooms.contains_leaveAll hc.rooms channel d.id

section Removal

variable (hk : h₀.Tidy) {via : Delivery} {user : UserId}

include hk

/-- An announcement goes to those who are in the table, and so does no harm if its two deliveries do
none. -/
theorem announceLeft {good : Hub → Prop} (hgood : ∀ g, good g → Course own h₀ g)
    {channel : ChannelId}
    (hvia : ∀ g ts, good g → (∀ p ∈ ts, h₀.Knows p) →
      good (via (leftFrame channel user) ts g).1) (hh : good h) :
    good (Hub.announceLeft via user channel h) := by
  have hroom := hvia h (h.rooms.members channel) hh
    fun p hp => (hgood h hh).knows_of_mem_members hk hp
  exact hvia _ _ hroom fun p hp => (hgood _ hroom).knows_of_mem_registered hk hp

theorem announceAll {good : Hub → Prop} (hgood : ∀ g, good g → Course own h₀ g)
    {channels : List ChannelId}
    (hvia : ∀ channel ∈ channels, ∀ g ts, good g → (∀ p ∈ ts, h₀.Knows p) →
      good (via (leftFrame channel user) ts g).1) (hh : good h) :
    good (channels.foldl (fun h channel => Hub.announceLeft via user channel h) h) := by
  induction channels generalizing h with
  | nil => exact hh
  | cons channel channels ih =>
    exact ih (fun c hc => hvia c (List.mem_cons_of_mem channel hc))
      (announceLeft hk hgood (hvia channel List.mem_cons_self) hh)

/-- The removal of one who was open at the start.  Each room that it left is told, and has lost its
name by then. -/
theorem remove (hc : Course own h₀ h) {d : Peer} (hknown : h₀.Knows d)
    (hopen : (h₀.connection d).isOpen = true) : Course own h₀ (remove Hub.offer d h).1 := by
  let good (g : Hub) : Prop := Course own h₀ g ∧
    ∀ channel ∈ (h.rooms.leaveAll d.id).2, Vacated h₀ g d channel
  have hdetached : good (h.detach d) :=
    ⟨hc.detach d, fun _ hin => hc.vacated_detach hknown hopen hin⟩
  have hannounced : good ((h.rooms.leaveAll d.id).2.foldl
      (fun h channel => Hub.announceLeft Hub.offer d.user channel h) (h.detach d)) := by
    refine announceAll hk (fun _ hg => hg.1) ?_ hdetached
    rintro channel hin g ts ⟨hg, hvacated⟩ hts
    have htells : TellsOusted h₀ g (leftFrame channel d.user) :=
      ⟨d, channel, hvacated channel hin, rfl⟩
    have hlater : Grows (fun _ _ => True) g (Hub.offer (leftFrame channel d.user) ts g).1 :=
      .offer g fun _ _ => trivial
    refine ⟨hg.offer hts fun _ _ => Or.inr htells, fun c hc => (hvacated c hc).later hlater ?_⟩
    rw [offer_rooms]
    exact List.Subset.refl _
  rw [remove_eq]
  exact hannounced.1.keep (.update _ d _ (fun _ => rfl) fun c => .markClosed _ c) rfl rfl

theorem evict (hc : Course own h₀ h) {d : Peer} (hknown : h₀.Knows d)
    (hopen : (h₀.connection d).isOpen = true) : Course own h₀ (evict d h) := by
  have hremoved := hc.remove hk hknown hopen
  simp only [Hub.evict]
  split
  next => exact hremoved.count _
  next => exact hremoved

/-- The loop removes those on the list, all of whom were open at the start. -/
theorem evictPending (hc : Course own h₀ h) :
    Course own h₀ h.evictPending ∧ h.evictPending.pending = [] := by
  induction h using Hub.evictPending.induct with
  | case1 h hnil =>
    rw [evictPending_of_nil hnil]
    exact ⟨hc, hnil⟩
  | case2 h d rest hcons ih =>
    have hpopped : Course own h₀ { h with pending := rest } :=
      hc.extend (.of_table_eq rfl rfl (.refl _)) hc.rooms (fun _ => List.Subset.refl _)
        fun e he => Or.inl (hcons ▸ List.mem_cons_of_mem d he)
    obtain ⟨hknown, hopen, _⟩ := hc.listed d (hcons ▸ List.mem_cons_self)
    rw [evictPending_of_cons hcons]
    exact ih (hpopped.evict hk hknown hopen)

end Removal

end Course

/-- A course at whose end nobody waits to be removed. -/
structure Calm (own : Nat → Frame → Prop) (h₀ h : Hub) : Prop extends Course own h₀ h where
  pending : h.pending = []
  draining : h.draining = false

namespace Calm

variable {own : Nat → Frame → Prop} {h₀ h h' : Hub}

theorem start (ht : h.Tidy) (own : Nat → Frame → Prop) : Calm own h h :=
  ⟨.start ht own, ht.pending, ht.draining⟩

theorem tidy (hc : Calm own h₀ h) (ht : h₀.Tidy) : h.Tidy where
  toKeyed := ht.toKeyed.of_grows hc.grows
  rooms := hc.rooms
  members_known := fun channel m hm =>
    (hc.grows.peer? m.handle).trans (ht.members_known channel m (hc.members channel hm))
  pending := hc.pending
  draining := hc.draining

/-- A step that changes neither rooms nor list. -/
theorem keep (hc : Calm own h₀ h) (hg : Grows own h h') (hrooms : h'.rooms = h.rooms)
    (hpending : h'.pending = h.pending) (hdraining : h'.draining = h.draining) :
    Calm own h₀ h' :=
  ⟨hc.toCourse.keep (hg.mono fun _ _ => Or.inl) hrooms hpending, hpending.trans hc.pending,
    hdraining.trans hc.draining⟩

theorem count (hc : Calm own h₀ h) (f : Counters → Counters) : Calm own h₀ (h.count f) :=
  hc.keep (.of_table_eq rfl rfl (.refl _)) rfl rfl rfl

section Deliver

variable (hk : h₀.Tidy)

include hk

/-- A delivery to anyone in the table, with all the removals that it sets off. -/
theorem deliver (hc : Calm own h₀ h) {f : Frame} {ts : List Peer} (hts : ∀ p ∈ ts, h₀.Knows p)
    (hf : ∀ p ∈ ts, own p.handle f) : Calm own h₀ (deliver f ts h).1 := by
  have hrecorded : Course own h₀ (record (push f ts h)) :=
    hc.toCourse.offer hts fun p hp => Or.inl (hf p hp)
  have hdraining : (record (push f ts h)).draining = false :=
    (push_draining f ts h).trans hc.draining
  simp only [Hub.deliver]
  split
  next hnone =>
    refine ⟨hrecorded, ?_, hdraining⟩
    rw [List.isEmpty_iff] at hnone
    simp only [record, hnone, push_pending, hc.pending, List.reverse_nil, List.nil_append]
  next =>
    obtain ⟨hdone, hempty⟩ := (hrecorded.setDraining true).evictPending hk
    simp only [drain, hdraining, Bool.false_eq_true, if_false]
    exact ⟨hdone.setDraining false, hempty, rfl⟩

variable {e : Event}

theorem broadcastWhere (hc : Calm own h₀ h) {sel : Connection → Bool}
    (he : ∀ p ∈ h.registered, sel (h.connection p) = true → own p.handle (.event e)) :
    Calm own h₀ (h.broadcastWhere sel e).1 := by
  apply hc.deliver hk
  · exact fun p hp => hc.knows_of_mem_registered hk (List.mem_filter.mp hp).1
  · exact fun p hp => he p (List.mem_filter.mp hp).1 (List.mem_filter.mp hp).2

theorem broadcastToChannel (hc : Calm own h₀ h) {channel : ChannelId}
    (he : ∀ p ∈ h.registered, (h.connection p).viewed = some channel →
      own p.handle (.event e)) : Calm own h₀ (h.broadcastToChannel channel e).1 :=
  hc.broadcastWhere hk fun p hp hsel => he p hp (beq_iff_eq.mp hsel)

theorem broadcast (hc : Calm own h₀ h) (he : ∀ p, h₀.Knows p → own p.handle (.event e)) :
    Calm own h₀ (h.broadcast e).1 :=
  hc.deliver hk (fun _ hp => hc.knows_of_mem_registered hk hp)
    fun p hp => he p (hc.knows_of_mem_registered hk hp)

theorem sendToUser (hc : Calm own h₀ h) {user : UserId}
    (he : ∀ p ∈ h.registered, p.user = user → own p.handle (.event e)) :
    Calm own h₀ (h.sendToUser user e).1 := by
  apply hc.deliver hk
  · exact fun p hp => hc.knows_of_mem_registered hk (List.mem_filter.mp hp).1
  · intro p hp
    obtain ⟨hreg, huser⟩ := List.mem_filter.mp hp
    exact he p hreg (beq_iff_eq.mp huser)

theorem broadcastToRoom (hc : Calm own h₀ h) {channel : ChannelId}
    {exclude : Option ConnectionId}
    (he : ∀ p ∈ h.rooms.members channel, exclude ≠ some p.id → own p.handle (.event e)) :
    Calm own h₀ (h.broadcastToRoom channel e exclude).1 := by
  apply hc.deliver hk
  · exact fun p hp => hc.knows_of_mem_members hk (List.mem_filter.mp hp).1
  · intro p hp
    obtain ⟨hmem, hother⟩ := List.mem_filter.mp hp
    exact he p hmem (bne_iff_ne.mp hother)

theorem sendTo (hc : Calm own h₀ h) {p : Peer} (hp : h₀.Knows p)
    (he : own p.handle (.event e)) : Calm own h₀ (h.sendTo p e).1 := by
  simp only [Hub.sendTo]
  exact hc.deliver hk (fun q hq => List.mem_singleton.mp hq ▸ hp)
    fun q hq => List.mem_singleton.mp hq ▸ he

theorem announceLeft (hc : Calm own h₀ h) {user : UserId} {channel : ChannelId}
    (hf : ∀ p, h₀.Knows p → own p.handle (leftFrame channel user)) :
    Calm own h₀ (Hub.announceLeft Hub.deliver user channel h) :=
  Course.announceLeft hk (fun _ hg => hg.toCourse)
    (fun _ _ hg hts => Calm.deliver hk hg hts fun p hp => hf p (hts p hp)) hc

theorem unregister (hc : Calm own h₀ h) {p : Peer}
    (hf : ∀ q channel, h₀.Knows q → own q.handle (leftFrame channel p.user)) :
    Calm own h₀ (h.unregister p).1 := by
  have hdetached : Calm own h₀ (h.detach p) := ⟨hc.toCourse.detach p, hc.pending, hc.draining⟩
  have hannounced : Calm own h₀ ((h.rooms.leaveAll p.id).2.foldl
      (fun h channel => Hub.announceLeft Hub.deliver p.user channel h) (h.detach p)) :=
    Course.announceAll hk (fun _ hg => hg.toCourse)
      (fun channel _ _ _ hg hts => Calm.deliver hk hg hts fun q hq => hf q channel (hts q hq))
      hdetached
  rw [Hub.unregister, remove_eq]
  exact hannounced.keep (.update _ p _ (fun _ => rfl) fun c => .markClosed _ c) rfl rfl rfl

/-- Leaving a room.  Only its own members can be found in it afterwards. -/
theorem leaveRoom (hc : Calm own h₀ h) {p : Peer} {channel : ChannelId}
    (hf : ∀ q, h₀.Knows q → own q.handle (leftFrame channel p.user)) :
    Calm own h₀ (h.leaveRoom p channel).1 := by
  simp only [Hub.leaveRoom]
  split
  next =>
    apply announceLeft hk _ hf
    refine ⟨hc.toCourse.extend (.of_table_eq rfl rfl (.refl _)) ?_ ?_ fun _ hd => Or.inl hd,
      hc.pending, hc.draining⟩
    · exact hc.rooms.leave channel p.id
    · exact fun _ _ hm => ((Rooms.mem_members_leave hc.rooms).mp hm).1
  next => exact hc

theorem relaySignal (hc : Calm own h₀ h) {p : Peer} {kind : SignalKind} {s : Signal}
    (hf : h.MaySignal p s → ∀ q ∈ h.registered, q.user = s.target →
      own q.handle (.event (signalEvent p kind s))) :
    Calm own h₀ (h.relaySignal p kind s).1 := by
  by_cases hmay : h.MaySignal p s
  · simp only [relaySignal_of_maySignal hmay]
    exact (hc.sendToUser hk (hf hmay)).count _
  · simp only [relaySignal_of_not_maySignal hmay]
    exact hc.count _

theorem reportMedia (hc : Calm own h₀ h) {p : Peer} {r : MediaReport}
    (hf : h.rooms.contains r.channel p.id = true → ∀ q ∈ h.rooms.members r.channel,
      q.id ≠ p.id → own q.handle
        (.event ⟨.voiceMediaState, .mediaState ⟨r.channel, p.user, r.camera, r.screen⟩⟩)) :
    Calm own h₀ (h.reportMedia p r) := by
  rw [Hub.reportMedia]
  split
  next hin =>
    exact hc.broadcastToRoom hk fun q hq hother =>
      hf hin q hq fun hid => hother (congrArg some hid.symm)
  next => exact hc

end Deliver

end Calm

end Hub

end ChatHub
