import ChatHub.Proofs.Hub.Membership
import ChatHub.Proofs.Hub.Push
/-!
Announcements while the loop runs.  Each is a frame and the connections it goes to, and none of them
removes anybody: whoever refuses is put on the list, once.
-/

namespace ChatHub.Hub

/-- Those on the list are the registered connections that are closing, each of them once. -/
structure Listed (h : Hub) : Prop where
  nodup : h.pending.Nodup
  mem_iff : ∀ p, p ∈ h.pending ↔ p ∈ h.registered ∧ (h.connection p).isOpen = false

/-- Connections that a frame may go to: registered ones, each of them once. -/
structure Receivers (h : Hub) (ts : List Peer) : Prop where
  registered : ∀ p ∈ ts, p ∈ h.registered
  nodup : ts.Nodup

theorem Receivers.filter {h : Hub} {ts : List Peer} (hts : h.Receivers ts) (sel : Peer → Bool) :
    h.Receivers (ts.filter sel) :=
  ⟨fun p hp => hts.registered p (List.mem_filter.mp hp).1, hts.nodup.filter sel⟩

theorem receivers_singleton {h : Hub} {p : Peer} (hp : p ∈ h.registered) : h.Receivers [p] :=
  ⟨fun _ hq => List.mem_singleton.mp hq ▸ hp, List.nodup_singleton p⟩

/-- Tells that a user left a room. -/
def leftFrame (channel : ChannelId) (user : UserId) : Frame := .event (.left channel user)

theorem leftFrame_inj {channel channel' : ChannelId} {user user' : UserId} :
    leftFrame channel user = leftFrame channel' user' ↔ channel = channel' ∧ user = user' := by
  simp only [leftFrame, Event.left, Frame.event.injEq, Event.mk.injEq, true_and,
    Event.Payload.presence.injEq, Event.VoicePresence.mk.injEq]

section Offer

variable (f : Frame) (ts : List Peer) (h : Hub)

@[simp]
theorem offer_registered : (offer f ts h).1.registered = h.registered := push_registered f ts h

@[simp]
theorem offer_rooms : (offer f ts h).1.rooms = h.rooms := push_rooms f ts h

@[simp]
theorem offer_limits : (offer f ts h).1.limits = h.limits := push_limits f ts h

@[simp]
theorem offer_draining : (offer f ts h).1.draining = h.draining := push_draining f ts h

@[simp]
theorem offer_peer? (i : Nat) : (offer f ts h).1.peer? i = h.peer? i := push_peer? f ts h i

theorem offer_counters :
    (offer f ts h).1.counters = { h.counters with events := h.counters.events + 1 } := by
  simp only [offer, record, count, push_counters]

variable {ts h}

theorem offer_connection (hts : ∀ q ∈ ts, h.Knows q) (hnodup : ts.Nodup) {p : Peer}
    (hp : h.Knows p) :
    (offer f ts h).1.connection p =
      (h.connection p).offerAll (if p ∈ ts then [f] else []) := by
  have hiff := hp.mem_handles_iff hts
  by_cases hmem : p ∈ ts
  · rw [if_pos hmem]
    exact push_connection_of_mem f h (handles_nodup hts hnodup) (hiff.mpr hmem)
  · rw [if_neg hmem]
    exact push_connection_of_not_mem f h fun hin => hmem (hiff.mp hin)

theorem offer_connection_of_not_mem {q : Peer} (hq : q.handle ∉ ts.map Peer.handle) :
    (offer f ts h).1.connection q = h.connection q :=
  push_connection_of_not_mem f h hq

/-- A delivery lists those whom it closes and nobody else. -/
theorem Listed.offer (hl : h.Listed) (hknown : ∀ p ∈ h.registered, h.Knows p)
    (hts : h.Receivers ts) : (offer f ts h).1.Listed := by
  have hnodup := hts.nodup
  have hk : ∀ q ∈ ts, h.Knows q := fun q hq => hknown q (hts.registered q hq)
  have hdead : (Hub.offer f ts h).1.pending = (ts.filter fun p =>
      (h.connection p).isOpen && !((h.connection p).offer f).isOpen).reverse ++ h.pending := by
    simp only [Hub.offer, record, push_pending, push_dead f h (handles_nodup hk hnodup)]
  constructor
  · rw [hdead, List.nodup_append, List.nodup_reverse]
    refine ⟨hnodup.filter _, hl.nodup, ?_⟩
    intro p hp q hq heq
    subst heq
    simp only [List.mem_reverse, List.mem_filter, Bool.and_eq_true] at hp
    rw [((hl.mem_iff p).mp hq).2] at hp
    exact Bool.false_ne_true hp.2.1
  · intro p
    rw [hdead, offer_registered, List.mem_append, List.mem_reverse, List.mem_filter, hl.mem_iff]
    constructor
    · rintro (⟨hmem, hcloses⟩ | ⟨hreg, hclosed⟩)
      · simp only [Bool.and_eq_true, Bool.not_eq_true'] at hcloses
        refine ⟨hts.registered p hmem, ?_⟩
        rw [offer_connection f hk hnodup (hk p hmem), if_pos hmem]
        exact hcloses.2
      · refine ⟨hreg, ?_⟩
        rw [offer_connection f hk hnodup (hknown p hreg),
          Connection.offerAll_of_not_open _ hclosed]
        exact hclosed
    · rintro ⟨hreg, hclosed⟩
      rw [offer_connection f hk hnodup (hknown p hreg)] at hclosed
      cases hopen : (h.connection p).isOpen with
      | false => exact Or.inr ⟨hreg, rfl⟩
      | true =>
        by_cases hmem : p ∈ ts
        · rw [if_pos hmem] at hclosed
          exact Or.inl ⟨hmem, by simpa using hclosed⟩
        · rw [if_neg hmem, Connection.offerAll_nil, hopen] at hclosed
          cases hclosed

end Offer

section Announce

/-- A frame and the connections it goes to. -/
abbrev Announcement := Frame × List Peer

/-- Makes announcements one after another. -/
def announce (as : List Announcement) (h : Hub) : Hub :=
  as.foldl (fun h a => (offer a.1 a.2 h).1) h

/-- What a connection hears of them. -/
def heard (as : List Announcement) (p : Peer) : List Frame :=
  as.flatMap fun a => if p ∈ a.2 then [a.1] else []

/-- The two announcements that a user left a room: to the room, and to everyone. -/
def departure (h : Hub) (user : UserId) (channel : ChannelId) : List Announcement :=
  [(leftFrame channel user, h.rooms.members channel), (leftFrame channel user, h.registered)]

@[simp]
theorem announce_cons (a : Announcement) (as : List Announcement) (h : Hub) :
    announce (a :: as) h = announce as (offer a.1 a.2 h).1 := rfl

variable (as : List Announcement) (h : Hub)

@[simp]
theorem announce_registered : (announce as h).registered = h.registered := by
  induction as generalizing h with
  | nil => rfl
  | cons a as ih => rw [announce_cons, ih, offer_registered]

@[simp]
theorem announce_rooms : (announce as h).rooms = h.rooms := by
  induction as generalizing h with
  | nil => rfl
  | cons a as ih => rw [announce_cons, ih, offer_rooms]

@[simp]
theorem announce_limits : (announce as h).limits = h.limits := by
  induction as generalizing h with
  | nil => rfl
  | cons a as ih => rw [announce_cons, ih, offer_limits]

@[simp]
theorem announce_peer? (i : Nat) : (announce as h).peer? i = h.peer? i := by
  induction as generalizing h with
  | nil => rfl
  | cons a as ih => rw [announce_cons, ih, offer_peer?]

theorem announce_counters :
    (announce as h).counters =
      { h.counters with events := h.counters.events + as.length } := by
  induction as generalizing h with
  | nil => rfl
  | cons a as ih =>
    rw [announce_cons, ih, offer_counters, List.length_cons, Nat.add_right_comm, Nat.add_assoc]

/-- Announcements change neither the set nor the rooms, so that all of them can be planned
ahead. -/
theorem foldl_announceLeft (user : UserId) (channels : List ChannelId) (h : Hub) :
    channels.foldl (fun h channel => announceLeft offer user channel h) h =
      announce (channels.flatMap (h.departure user)) h := by
  induction channels generalizing h with
  | nil => rfl
  | cons channel channels ih =>
    have hstep : announceLeft offer user channel h = announce (h.departure user channel) h := by
      simp only [announceLeft, departure, announce, leftFrame, List.foldl_cons, List.foldl_nil,
        offer_registered]
    have hsame : (announce (h.departure user channel) h).departure user = h.departure user := by
      funext c
      simp only [departure, announce_registered, announce_rooms]
    rw [List.foldl_cons, ih, hstep, hsame, List.flatMap_cons]
    simp only [announce, List.foldl_append]

variable {as h}

theorem announce_connection (has : ∀ a ∈ as, a.2.Nodup ∧ ∀ q ∈ a.2, h.Knows q) {p : Peer}
    (hp : h.Knows p) :
    (announce as h).connection p = (h.connection p).offerAll (heard as p) := by
  induction as generalizing h with
  | nil => rfl
  | cons a as ih =>
    have hfirst := has a List.mem_cons_self
    have hrest : ∀ b ∈ as, b.2.Nodup ∧ ∀ q ∈ b.2, (offer a.1 a.2 h).1.Knows q := by
      intro b hb
      have hlater := has b (List.mem_cons_of_mem a hb)
      exact ⟨hlater.1, fun q hq => (offer_peer? ..).trans (hlater.2 q hq)⟩
    rw [announce_cons, ih hrest ((offer_peer? ..).trans hp),
      offer_connection a.1 hfirst.2 hfirst.1 hp, ← Connection.offerAll_append]
    rfl

theorem announce_connection_of_not_mem {q : Peer}
    (hq : ∀ a ∈ as, q.handle ∉ a.2.map Peer.handle) :
    (announce as h).connection q = h.connection q := by
  induction as generalizing h with
  | nil => rfl
  | cons a as ih =>
    rw [announce_cons, ih fun b hb => hq b (List.mem_cons_of_mem a hb),
      offer_connection_of_not_mem a.1 (hq a List.mem_cons_self)]

theorem Listed.announce (hl : h.Listed) (hknown : ∀ p ∈ h.registered, h.Knows p)
    (has : ∀ a ∈ as, h.Receivers a.2) : (announce as h).Listed := by
  induction as generalizing h with
  | nil => exact hl
  | cons a as ih =>
    apply ih (hl.offer a.1 hknown (has a List.mem_cons_self))
    · intro p hp
      rw [offer_registered] at hp
      exact (offer_peer? ..).trans (hknown p hp)
    · intro b hb
      have hlater := has b (List.mem_cons_of_mem a hb)
      refine ⟨?_, hlater.nodup⟩
      rw [offer_registered]
      exact hlater.registered

end Announce

end ChatHub.Hub
