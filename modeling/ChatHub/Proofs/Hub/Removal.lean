import ChatHub.Proofs.Hub.Announcement
/-!
Taking one connection off the hub.  It leaves the set and its rooms first; whoever stays is then
told of each room that it left, twice if they share the room, and the one who left hears nothing.
-/

namespace ChatHub

/-- The rooms without some of the connections. -/
def Rooms.without (gone : List Peer) (rs : Rooms) : Rooms :=
  rs.restrict fun _ p => decide (p ∉ gone)

/-- A connection that has been taken down. -/
def Connection.shut (c : Connection) : Connection := c.beginClose.closeQueue.markClosed

namespace Hub

/-- The set, the table and the rooms agree on who is who, whatever has become of the
connections. -/
structure WellFormed (h : Hub) : Prop where
  known : ∀ p ∈ h.registered, h.Knows p
  ids_nodup : (h.registered.map Peer.id).Nodup
  rooms : h.rooms.Valid
  members : ∀ r ∈ h.rooms.rooms, ∀ p ∈ r.members, p ∈ h.registered

/-- Nobody else in the set goes by the name of `p`. -/
def Distinguishes (h : Hub) (p : Peer) : Prop := ∀ q ∈ h.registered, q.id = p.id → q = p

namespace WellFormed

variable {h : Hub} (hw : h.WellFormed)

include hw

theorem distinguishes {p : Peer} (hp : p ∈ h.registered) : h.Distinguishes p :=
  fun _ hq heq => List.inj_on_of_nodup_map hw.ids_nodup hq hp heq

theorem registered_nodup : h.registered.Nodup := hw.ids_nodup.of_map Peer.id

theorem mem_registered_of_mem_members {p : Peer} {channel : ChannelId}
    (hp : p ∈ h.rooms.members channel) : p ∈ h.registered := by
  obtain ⟨r, hr, _, hmem⟩ := Rooms.exists_room_of_mem_members hp
  exact hw.members r hr p hmem

theorem members_nodup (channel : ChannelId) : (h.rooms.members channel).Nodup :=
  hw.rooms.members_nodup channel

theorem receivers_registered : h.Receivers h.registered := ⟨fun _ hp => hp, hw.registered_nodup⟩

theorem receivers_members (channel : ChannelId) : h.Receivers (h.rooms.members channel) :=
  ⟨fun _ hp => hw.mem_registered_of_mem_members hp, hw.members_nodup channel⟩

theorem rooms_distinguishes {p : Peer} (hp : h.Distinguishes p) : h.rooms.Distinguishes p :=
  fun r hr q hq heq => hp q (hw.members r hr q hq) heq

theorem mem_roomsOf {p : Peer} {channel : ChannelId} :
    channel ∈ h.rooms.roomsOf p ↔ p ∈ h.rooms.members channel :=
  Rooms.mem_roomsOf hw.rooms.channels_nodup

theorem mem_members_without {h' : Hub} {gone : List Peer}
    (hrooms : h'.rooms = h.rooms.without gone) {p : Peer} {channel : ChannelId} :
    p ∈ h'.rooms.members channel ↔ p ∈ h.rooms.members channel ∧ p ∉ gone := by
  rw [hrooms, Rooms.without, Rooms.mem_members_restrict _ hw.rooms, decide_eq_true_eq]

/-- Nothing gets confused when connections leave the set and the rooms together. -/
theorem of_without {h' : Hub} {gone : List Peer}
    (hregistered : h'.registered = h.registered.filter fun q => q ∉ gone)
    (hrooms : h'.rooms = h.rooms.without gone) (hpeer : ∀ i, h'.peer? i = h.peer? i) :
    h'.WellFormed where
  known := by
    intro q hq
    rw [hregistered] at hq
    exact (hpeer q.handle).trans (hw.known q (List.mem_filter.mp hq).1)
  ids_nodup := by
    rw [hregistered]
    exact hw.ids_nodup.sublist (List.filter_sublist.map _)
  rooms := by
    rw [hrooms]
    exact hw.rooms.restrict _
  members := by
    intro r hr q hq
    have hvalid : h'.rooms.Valid := hrooms ▸ hw.rooms.restrict _
    rw [← Rooms.members_of_mem hvalid.channels_nodup hr,
      hw.mem_members_without hrooms] at hq
    rw [hregistered, List.mem_filter, decide_eq_true_eq]
    exact ⟨hw.mem_registered_of_mem_members hq.1, hq.2⟩

end WellFormed

/-- Out of the set and out of the rooms, with a closed queue; nothing has been said of it yet. -/
def detach (p : Peer) (h : Hub) : Hub :=
  { h.update p fun c => c.beginClose.closeQueue with
    registered := erasePeer p.id h.registered
    rooms := (h.rooms.leaveAll p.id).1 }

theorem remove_eq (via : Delivery) (p : Peer) (h : Hub) :
    remove via p h =
      ((((h.rooms.leaveAll p.id).2.foldl (fun h channel => announceLeft via p.user channel h)
        (h.detach p)).update p Connection.markClosed), h.isRegistered p) := rfl

section Detach

variable {h : Hub} {p : Peer}

theorem detach_registered (hp : h.Distinguishes p) :
    (h.detach p).registered = h.registered.filter fun q => q ∉ [p] := by
  simp only [detach, erasePeer]
  apply List.filter_congr
  intro q hq
  rw [Bool.eq_iff_iff, bne_iff_ne, decide_eq_true_eq, List.mem_singleton]
  exact not_congr ⟨hp q hq, fun heq => heq ▸ rfl⟩

theorem detach_rooms (hw : h.WellFormed) (hp : h.Distinguishes p) :
    (h.detach p).rooms = h.rooms.without [p] := by
  simp only [detach, Rooms.leaveAll_rooms, Rooms.without]
  apply Rooms.restrict_congr
  intro r hr q hq
  rw [Bool.eq_iff_iff, bne_iff_ne, decide_eq_true_eq, List.mem_singleton]
  exact not_congr ⟨hp q (hw.members r hr q hq), fun heq => heq ▸ rfl⟩

@[simp]
theorem detach_peer? (i : Nat) : (h.detach p).peer? i = h.peer? i := by
  exact peer?_update p (fun c => c.beginClose.closeQueue) h (fun c => peer_beginClose c) i

theorem detach_connection_of_ne {q : Peer} (hne : q.handle ≠ p.handle) :
    (h.detach p).connection q = h.connection q :=
  connection_update_of_ne p q _ h hne

theorem detach_connection_self :
    (h.detach p).connection p = (h.connection p).beginClose.closeQueue :=
  connection_update_of_handle_eq p p _ h rfl rfl

theorem mem_detach_registered (hp : h.Distinguishes p) {q : Peer} :
    q ∈ (h.detach p).registered ↔ q ∈ h.registered ∧ q ≠ p := by
  rw [detach_registered hp, List.mem_filter, decide_eq_true_eq, List.mem_singleton]

theorem mem_detach_members (hw : h.WellFormed) (hp : h.Distinguishes p) {q : Peer}
    {channel : ChannelId} :
    q ∈ (h.detach p).rooms.members channel ↔ q ∈ h.rooms.members channel ∧ q ≠ p := by
  rw [hw.mem_members_without (detach_rooms hw hp), List.mem_singleton]

theorem WellFormed.detach (hw : h.WellFormed) (hp : h.Distinguishes p) :
    (h.detach p).WellFormed :=
  hw.of_without (detach_registered hp) (detach_rooms hw hp) detach_peer?

end Detach

theorem unregister_eq {h : Hub} {p : Peer} (hw : h.WellFormed) (hp : h.Distinguishes p) :
    (h.unregister p).1 = ((h.rooms.roomsOf p).foldl
      (fun h channel => announceLeft deliver p.user channel h) (h.detach p)).update p
        Connection.markClosed := by
  rw [unregister, remove_eq, Rooms.leaveAll_channels (hw.rooms_distinguishes hp)]

/-- What `p` is told when `d` goes: of each room of `d`, as a member if it is one, and with
everyone. -/
def farewells (h : Hub) (d p : Peer) : List Frame :=
  (h.rooms.roomsOf d).flatMap fun channel =>
    (if p ∈ h.rooms.members channel then [leftFrame channel d.user] else []) ++
      [leftFrame channel d.user]

/-- What the removal of a registered connection `d` makes of the hub `h`. -/
structure Evicted (d : Peer) (h h' : Hub) : Prop where
  limits : h'.limits = h.limits
  registered : h'.registered = h.registered.filter fun q => q ∉ [d]
  rooms : h'.rooms = h.rooms.without [d]
  peer? : ∀ i, h'.peer? i = h.peer? i
  counters : h'.counters =
    { h.counters with
      events := h.counters.events + 2 * (h.rooms.roomsOf d).length
      evicted := h.counters.evicted + 1 }
  removed : h'.connection d = (h.connection d).shut
  survivor : ∀ p ∈ h.registered, p ≠ d →
    h'.connection p = (h.connection p).offerAll (h.farewells d p)
  bystander : ∀ q, q.handle ∉ h.registered.map Peer.handle →
    h'.connection q = h.connection q

/-- The announcements that a removal makes. -/
def departures (h : Hub) (d : Peer) : List Announcement :=
  (h.rooms.roomsOf d).flatMap ((h.detach d).departure d.user)

theorem length_departures (h : Hub) (d : Peer) :
    (departures h d).length = 2 * (h.rooms.roomsOf d).length := by
  simp only [departures, List.length_flatMap, departure, List.length_cons, List.length_nil,
    List.map_const', List.sum_replicate_nat]
  omega

section Evict

variable {h : Hub} {d : Peer} (hw : h.WellFormed) (hd : h.Distinguishes d)

include hw hd

theorem evict_eq : evict d h =
    if h.isRegistered d then
      ((announce (h.departures d) (h.detach d)).update d Connection.markClosed).count
        fun n => { n with evicted := n.evicted + 1 }
    else (announce (h.departures d) (h.detach d)).update d Connection.markClosed := by
  simp only [evict, remove_eq, departures, foldl_announceLeft,
    Rooms.leaveAll_channels (hw.rooms_distinguishes hd)]

theorem receivers_of_mem_departures {a : Announcement} (ha : a ∈ h.departures d) :
    (h.detach d).Receivers a.2 := by
  have hw' := hw.detach hd
  obtain ⟨channel, _, hin⟩ := List.mem_flatMap.mp ha
  simp only [departure, List.mem_cons, List.not_mem_nil, or_false] at hin
  rcases hin with rfl | rfl
  · exact hw'.receivers_members channel
  · exact hw'.receivers_registered

theorem heard_departures {p : Peer} (hp : p ∈ h.registered) (hne : p ≠ d) :
    heard (h.departures d) p = h.farewells d p := by
  have hreg : p ∈ (h.detach d).registered := (mem_detach_registered hd).mpr ⟨hp, hne⟩
  simp only [heard, departures, farewells, List.flatMap_assoc]
  apply List.flatMap_congr
  intro channel _
  simp only [departure, List.flatMap_cons, List.flatMap_nil, List.append_nil, hreg, if_true,
    mem_detach_members hw hd, hne, ne_eq, not_false_eq_true, and_true]

theorem evicted_evict (hmem : d ∈ h.registered) : Evicted d h (evict d h) := by
  have hreg : h.isRegistered d = true := List.any_eq_true.mpr ⟨d, hmem, by simp⟩
  have hw' := hw.detach hd
  have hanns : ∀ a ∈ h.departures d, a.2.Nodup ∧ ∀ q ∈ a.2, (h.detach d).Knows q :=
    fun a ha => ⟨(receivers_of_mem_departures hw hd ha).nodup,
      fun q hq => hw'.known q ((receivers_of_mem_departures hw hd ha).registered q hq)⟩
  rw [evict_eq hw hd, if_pos hreg]
  constructor
  case limits => exact announce_limits _ _
  case registered => exact (announce_registered _ _).trans (detach_registered hd)
  case rooms => exact (announce_rooms _ _).trans (detach_rooms hw hd)
  case peer? =>
    intro i
    refine (peer?_update d Connection.markClosed _ (fun c => rfl) i).trans ?_
    rw [announce_peer?, detach_peer?]
  case counters =>
    simp only [count, update_counters, announce_counters, length_departures]
    rfl
  case removed =>
    refine (connection_update_of_handle_eq d d Connection.markClosed _ rfl rfl).trans ?_
    rw [announce_connection_of_not_mem, detach_connection_self]
    · rfl
    · intro a ha hin
      obtain ⟨q, hq, heq⟩ := List.mem_map.mp hin
      have hin := (receivers_of_mem_departures hw hd ha).registered q hq
      have hmemq := (mem_detach_registered hd).mp hin
      exact hmemq.2 ((hw.known q hmemq.1).eq_of_handle (hw.known d hmem) heq)
  case survivor =>
    intro p hp hne
    have hhandle : p.handle ≠ d.handle := fun heq =>
      hne ((hw.known p hp).eq_of_handle (hw.known d hmem) heq)
    refine (connection_update_of_ne d p Connection.markClosed _ hhandle).trans ?_
    rw [announce_connection hanns ((detach_peer? p.handle).trans (hw.known p hp)),
      detach_connection_of_ne hhandle, heard_departures hw hd hp hne]
  case bystander =>
    intro q hq
    have hhandle : q.handle ≠ d.handle := fun heq =>
      hq (heq ▸ List.mem_map_of_mem hmem)
    refine (connection_update_of_ne d q Connection.markClosed _ hhandle).trans ?_
    rw [announce_connection_of_not_mem, detach_connection_of_ne hhandle]
    intro a ha hin
    obtain ⟨m, hm, heq⟩ := List.mem_map.mp hin
    have hin := (receivers_of_mem_departures hw hd ha).registered m hm
    have hmemm := (mem_detach_registered hd).mp hin
    exact hq (heq ▸ List.mem_map_of_mem hmemm.1)

/-- The loop keeps its list: the one removed is off it, and those who refuse on the way are on
it. -/
theorem Listed.evict (hl : h.Listed) {rest : List Peer} (hpending : h.pending = d :: rest) :
    (evict d { h with pending := rest }).Listed := by
  let g : Hub := { h with pending := rest }
  have hwg : g.WellFormed := ⟨hw.known, hw.ids_nodup, hw.rooms, hw.members⟩
  have hdg : g.Distinguishes d := hd
  have hlist : d ∉ rest ∧ rest.Nodup := List.nodup_cons.mp (hpending ▸ hl.nodup)
  have hmem : d ∈ h.registered :=
    ((hl.mem_iff d).mp (hpending ▸ List.mem_cons_self)).1
  have hother {p : Peer} (hp : p ∈ (g.detach d).registered) : p.handle ≠ d.handle := by
    intro heq
    have hp' := (mem_detach_registered hdg).mp hp
    exact hp'.2 ((hw.known p hp'.1).eq_of_handle (hw.known d hmem) heq)
  have hdetached : (g.detach d).Listed := by
    refine ⟨hlist.2, fun p => ?_⟩
    constructor
    · intro hp
      have hne : p ≠ d := fun heq => hlist.1 (heq ▸ hp)
      have hold := (hl.mem_iff p).mp (hpending ▸ List.mem_cons_of_mem d hp)
      have hreg := (mem_detach_registered hdg).mpr ⟨hold.1, hne⟩
      refine ⟨hreg, ?_⟩
      rw [detach_connection_of_ne (hother hreg)]
      exact hold.2
    · rintro ⟨hreg, hclosed⟩
      rw [detach_connection_of_ne (hother hreg)] at hclosed
      have hp' := (mem_detach_registered hdg).mp hreg
      have hin : p ∈ d :: rest := hpending ▸ (hl.mem_iff p).mpr ⟨hp'.1, hclosed⟩
      exact (List.mem_cons.mp hin).resolve_left hp'.2
  have hannounced := hdetached.announce (hwg.detach hdg).known
    fun a ha => receivers_of_mem_departures hwg hdg ha
  have hmarked : ((Hub.announce (g.departures d) (g.detach d)).update d
      Connection.markClosed).Listed := by
    refine ⟨hannounced.nodup, fun p => (hannounced.mem_iff p).trans ?_⟩
    apply and_congr_right
    intro hreg
    rw [announce_registered] at hreg
    rw [connection_update_of_ne d p _ _ (hother hreg)]
  rw [evict_eq hwg hdg]
  split
  · exact ⟨hmarked.nodup, hmarked.mem_iff⟩
  · exact hmarked

end Evict

theorem evictPending_of_nil {h : Hub} (hnil : h.pending = []) : h.evictPending = h := by
  rw [evictPending]
  split
  next => rfl
  next hcons => rw [hnil] at hcons; cases hcons

theorem evictPending_of_cons {h : Hub} {p : Peer} {rest : List Peer}
    (hcons : h.pending = p :: rest) :
    h.evictPending = (evict p { h with pending := rest }).evictPending := by
  rw [evictPending]
  split
  next hnil => rw [hnil] at hcons; cases hcons
  next hcons' => rw [hcons'] at hcons; cases hcons; rfl

end Hub

end ChatHub
