import ChatHub.Proofs.Hub.Cascade
import Mathlib.Data.Finset.Basic
import Mathlib.Data.List.Nodup
/-!
Who sits in which room, as it is told to everyone, and what a listener makes of the announcements.
A delivery takes the same seats off the hub's own list and off that of a listener.
-/

namespace ChatHub.Hub

/-- A room and one of its users. -/
abbrev Seat := ChannelId × UserId

/-- The users of all rooms. -/
def roster (h : Hub) : Finset Seat :=
  (h.rooms.snapshot.flatMap fun room => room.2.map fun user => (room.1, user)).toFinset

/-- What a listener makes of a frame: who has joined is put on the list, and who has left is taken
off it. -/
def hear (view : Finset Seat) : Frame → Finset Seat
  | .event ⟨.voiceJoined, .presence d⟩ => insert (d.channel, d.user) view
  | .event ⟨.voiceLeft, .presence d⟩ => view.erase (d.channel, d.user)
  | _ => view

/-- What a listener makes of frames that come one after another. -/
def replay (fs : List Frame) (view : Finset Seat) : Finset Seat := fs.foldl hear view

theorem replay_append (fs gs : List Frame) (view : Finset Seat) :
    replay (fs ++ gs) view = replay gs (replay fs view) :=
  List.foldl_append

theorem hear_of_isServerWide {e : Event} (he : e.kind.isServerWide = true)
    (view : Finset Seat) : hear view (.event e) = view := by
  obtain ⟨kind, data⟩ := e
  cases kind <;> first | rfl | cases he

theorem mem_roster {h : Hub} (hw : h.WellFormed) {s : Seat} :
    s ∈ h.roster ↔ ∃ m ∈ h.rooms.members s.1, m.user = s.2 := by
  simp only [roster, Rooms.snapshot, List.mem_toFinset, List.mem_flatMap, mem_sortByName,
    List.mem_map]
  constructor
  · rintro ⟨_, ⟨r, hr, rfl⟩, user, huser, rfl⟩
    obtain ⟨m, hm, heq⟩ := List.mem_map.mp (mem_distinctNames.mp huser)
    exact ⟨m, (Rooms.members_of_mem hw.rooms.channels_nodup hr).symm ▸ hm, heq⟩
  · rintro ⟨m, hm, huser⟩
    obtain ⟨r, hr, hchannel, hmem⟩ := Rooms.exists_room_of_mem_members hm
    refine ⟨_, ⟨r, hr, rfl⟩, s.2, ?_, Prod.ext hchannel rfl⟩
    exact mem_distinctNames.mpr (List.mem_map.mpr ⟨m, hmem, huser⟩)

/-- The seats of those in `gone`. -/
def Lost (h : Hub) (gone : List Peer) (s : Seat) : Prop :=
  ∃ d ∈ gone, d ∈ h.rooms.members s.1 ∧ d.user = s.2

theorem mem_replay_of_left {fs : List Frame}
    (hfs : ∀ f ∈ fs, ∃ channel user, f = leftFrame channel user) {view : Finset Seat} {s : Seat} :
    s ∈ replay fs view ↔ s ∈ view ∧ leftFrame s.1 s.2 ∉ fs := by
  induction fs generalizing view with
  | nil => simp [replay]
  | cons f fs ih =>
    obtain ⟨channel, user, rfl⟩ := hfs f List.mem_cons_self
    have hrest : ∀ f ∈ fs, ∃ channel user, f = leftFrame channel user :=
      fun g hg => hfs g (List.mem_cons_of_mem _ hg)
    have hsame : leftFrame s.1 s.2 = leftFrame channel user ↔ s = (channel, user) := by
      rw [leftFrame_inj, Prod.ext_iff]
    change s ∈ replay fs (view.erase (channel, user)) ↔ _
    rw [ih hrest, Finset.mem_erase, List.mem_cons, not_or, hsame]
    tauto

/-- Farewells are announcements, one or two for each room of the one who goes. -/
theorem mem_farewells {h : Hub} {d p : Peer} {g : Frame} :
    g ∈ h.farewells d p ↔ ∃ channel ∈ h.rooms.roomsOf d, g = leftFrame channel d.user := by
  rw [farewells, List.mem_flatMap]
  apply exists_congr
  intro channel
  apply and_congr_right
  intro _
  split
  · simp
  · simp

theorem left_mem_farewells {h : Hub} {d p : Peer} {s : Seat} :
    leftFrame s.1 s.2 ∈ h.farewells d p ↔ s.1 ∈ h.rooms.roomsOf d ∧ d.user = s.2 := by
  rw [mem_farewells]
  constructor
  · rintro ⟨channel, hroom, heq⟩
    obtain ⟨rfl, huser⟩ := leftFrame_inj.mp heq
    exact ⟨hroom, huser.symm⟩
  · rintro ⟨hroom, huser⟩
    exact ⟨s.1, hroom, by rw [huser]⟩

section Delivered

variable {h h' : Hub} {f : Frame} {targets gone : List Peer}

/-- A delivery takes the seats of those who go off the list. -/
theorem Delivered.mem_roster (hd : Delivered h f targets gone h') (hw : h.WellFormed)
    (husers : (h.registered.map Peer.user).Nodup) {s : Seat} :
    s ∈ h'.roster ↔ s ∈ h.roster ∧ ¬ h.Lost gone s := by
  rw [Hub.mem_roster (hd.wellFormed hw), Hub.mem_roster hw]
  simp only [hw.mem_members_without hd.rooms]
  constructor
  · rintro ⟨m, ⟨hm, hstays⟩, huser⟩
    refine ⟨⟨m, hm, huser⟩, ?_⟩
    rintro ⟨d, hgone, hd', huser'⟩
    have hsame := List.inj_on_of_nodup_map husers (hw.mem_registered_of_mem_members hm)
      (hw.mem_registered_of_mem_members hd') (huser.trans huser'.symm)
    exact hstays (hsame ▸ hgone)
  · rintro ⟨⟨m, hm, huser⟩, hkept⟩
    exact ⟨m, ⟨hm, fun hgone => hkept ⟨m, hgone, hm, huser⟩⟩, huser⟩

section Deliver

variable (hq : h.Quiescent) (htargets : h.Receivers targets)

include hq htargets

theorem Quiescent.registered_deliver_subset :
    (deliver f targets h).1.registered ⊆ h.registered := by
  obtain ⟨gone, hd⟩ := exists_delivered hq f htargets
  exact fun _ hp => (hd.mem_registered.mp hp).1

/-- Whoever stays on the hub stays in its rooms. -/
theorem Quiescent.mem_members_deliver {p : Peer} {channel : ChannelId}
    (hp : p ∈ (deliver f targets h).1.registered) (hmem : p ∈ h.rooms.members channel) :
    p ∈ (deliver f targets h).1.rooms.members channel := by
  obtain ⟨gone, hd⟩ := exists_delivered hq f htargets
  exact (hq.mem_members_without hd.rooms).mpr ⟨hmem, (hd.mem_registered.mp hp).2⟩

/-- No delivery puts anybody into a room. -/
theorem Quiescent.roster_deliver_subset : (deliver f targets h).1.roster ⊆ h.roster := by
  obtain ⟨gone, hd⟩ := exists_delivered hq f htargets
  intro s hs
  obtain ⟨m, hm, huser⟩ := (Hub.mem_roster (hd.wellFormed hq.toWellFormed)).mp hs
  have hm' := ((hq.mem_members_without hd.rooms).mp hm).1
  exact (Hub.mem_roster hq.toWellFormed).mpr ⟨m, hm', huser⟩

end Deliver

theorem Quiescent.roster_announceLeft_subset (hq : h.Quiescent) (user : UserId)
    (channel : ChannelId) : (announceLeft deliver user channel h).roster ⊆ h.roster := by
  obtain ⟨_, hd⟩ :=
    exists_delivered hq (leftFrame channel user) (hq.receivers_members channel)
  have hroom := hd.quiescent hq
  exact (hroom.roster_deliver_subset hroom.receivers_registered).trans
    (hq.roster_deliver_subset (hq.receivers_members channel))

/-- A listener who stays takes the same seats off its own list. -/
theorem mem_replay_owedInTurn (hw : h.WellFormed) {o : Peer} (ho : o ∉ gone)
    {view : Finset Seat} {s : Seat} :
    s ∈ replay (h.owedInTurn f targets gone o) view ↔
      s ∈ (if o ∈ targets then hear view f else view) ∧ ¬ h.Lost gone s := by
  have hfirst : replay (if o ∈ targets then [f] else []) view =
      if o ∈ targets then hear view f else view := by
    split
    · rfl
    · rfl
  have hleft : ∀ g ∈ gone.flatMap fun d => if d = o then [] else h.farewells d o,
      ∃ channel user, g = leftFrame channel user := by
    intro g hg
    obtain ⟨d, hd, hmem⟩ := List.mem_flatMap.mp hg
    have hne : d ≠ o := fun heq => ho (heq ▸ hd)
    rw [if_neg hne] at hmem
    obtain ⟨channel, _, rfl⟩ := mem_farewells.mp hmem
    exact ⟨channel, d.user, rfl⟩
  have hlost : (leftFrame s.1 s.2 ∈ gone.flatMap fun d => if d = o then [] else h.farewells d o) ↔
      h.Lost gone s := by
    rw [List.mem_flatMap]
    apply exists_congr
    intro d
    apply and_congr_right
    intro hd
    have hne : d ≠ o := fun heq => ho (heq ▸ hd)
    rw [if_neg hne, left_mem_farewells, hw.mem_roomsOf]
  rw [owedInTurn, replay_append, hfirst, mem_replay_of_left hleft, hlost]

end Delivered

end ChatHub.Hub
