import ChatHub.Proofs.Hub.Consistency
import ChatHub.Proofs.Hub.Roster
import ChatHub.Proofs.Hub.Signaling
/-!
A listener that keeps a list of who is where from the announcements alone.  In the middle of an
operation its list and the hub's own may differ in the seats that the operation is about to
announce, and in no others.
-/

namespace ChatHub.Hub

/-- The hub is on its way from `h₀` to the end of an operation.  If `o` is still registered, it has
heard enough since to know all seats but those in `flux`. -/
structure Follows (o : Peer) (h₀ : Hub) (leaving : Option Peer) (flux : Finset Seat) (h : Hub) :
    Prop extends h.ConsistentBut leaving where
  users_nodup : (h.registered.map Peer.user).Nodup
  hears : o ∈ h.registered → ∃ fs,
    (h.connection o).queue.waiting = (h₀.connection o).queue.waiting ++ fs ∧
      ∀ s ∉ flux, s ∈ replay fs h₀.roster ↔ s ∈ h.roster

/-- The frame says nothing of any seat but those in `flux`. -/
def Quiet (flux : Finset Seat) (f : Frame) : Prop :=
  ∀ s ∉ flux, ∀ view, s ∈ hear view f ↔ s ∈ view

theorem quiet_joined (channel : ChannelId) (user : UserId) :
    Quiet {(channel, user)} (.event (.joined channel user)) := by
  intro s hs view
  rw [Finset.mem_singleton] at hs
  change s ∈ insert (channel, user) view ↔ s ∈ view
  rw [Finset.mem_insert]
  exact or_iff_right hs

namespace Follows

variable {o : Peer} {h₀ h : Hub} {leaving : Option Peer} {flux : Finset Seat}

theorem start (hc : h.Consistent) (husers : (h.registered.map Peer.user).Nodup) (o : Peer) :
    Follows o h none ∅ h :=
  ⟨hc, husers, fun _ => ⟨[], (List.append_nil _).symm, fun _ _ => Iff.rfl⟩⟩

variable (hf : Follows o h₀ leaving flux h)

include hf

theorem mono {flux' : Finset Seat} (hsub : flux ⊆ flux') : Follows o h₀ leaving flux' h := by
  refine ⟨hf.toConsistentBut, hf.users_nodup, fun ho => ?_⟩
  obtain ⟨fs, hfs, hagree⟩ := hf.hears ho
  exact ⟨fs, hfs, fun s hs => hagree s fun hin => hs (hsub hin)⟩

/-- A delivery settles a seat if `o` is told the truth of it. -/
theorem settle {f : Frame} {targets : List Peer} (htargets : h.Receivers targets)
    {flux' : Finset Seat}
    (hsettle : ∀ s ∉ flux', (s ∉ flux ∧ ∀ view, s ∈ hear view f ↔ s ∈ view) ∨
      (o ∈ h.registered → o ∈ targets) ∧ ∀ view, s ∈ hear view f ↔ s ∈ h.roster) :
    Follows o h₀ leaving flux' (deliver f targets h).1 := by
  obtain ⟨gone, hd⟩ := exists_delivered hf.toQuiescent f htargets
  refine ⟨hf.delivered hd, ?_, fun ho => ?_⟩
  · rw [hd.registered]
    exact hf.users_nodup.sublist (List.filter_sublist.map _)
  · obtain ⟨hreg, hstays⟩ := hd.mem_registered.mp ho
    obtain ⟨fs, hfs, hagree⟩ := hf.hears hreg
    refine ⟨fs ++ h.owedInTurn f targets gone o, ?_, fun s hs => ?_⟩
    · rw [hd.survivor_takes hf.toQuiescent hreg hstays, ← List.append_assoc, ← hfs]
      rfl
    · rw [replay_append, mem_replay_owedInTurn hf.toWellFormed hstays,
        hd.mem_roster hf.toWellFormed hf.users_nodup]
      -- the removals take the same seats off both lists, so that only the frame itself matters
      apply and_congr_left
      intro _
      rcases hsettle s hs with ⟨hout, hsame⟩ | ⟨hin, htrue⟩
      · rw [← hagree s hout]
        split
        · exact hsame _
        · exact Iff.rfl
      · rw [if_pos (hin hreg)]
        exact htrue _

theorem deliver {f : Frame} {targets : List Peer} (htargets : h.Receivers targets)
    (hquiet : Quiet flux f) : Follows o h₀ leaving flux (deliver f targets h).1 :=
  hf.settle htargets fun s hs => Or.inl ⟨hs, hquiet s hs⟩

theorem broadcastWhere (sel : Connection → Bool) {e : Event} (hquiet : Quiet flux (.event e)) :
    Follows o h₀ leaving flux (h.broadcastWhere sel e).1 :=
  hf.deliver (hf.receivers_registered.filter _) hquiet

theorem broadcastToChannel (channel : ChannelId) {e : Event} (hquiet : Quiet flux (.event e)) :
    Follows o h₀ leaving flux (h.broadcastToChannel channel e).1 :=
  hf.broadcastWhere _ hquiet

theorem broadcast {e : Event} (hquiet : Quiet flux (.event e)) :
    Follows o h₀ leaving flux (h.broadcast e).1 :=
  hf.deliver hf.receivers_registered hquiet

theorem sendToUser (user : UserId) {e : Event} (hquiet : Quiet flux (.event e)) :
    Follows o h₀ leaving flux (h.sendToUser user e).1 :=
  hf.deliver (hf.receivers_registered.filter _) hquiet

theorem broadcastToRoom (channel : ChannelId) {e : Event} (exclude : Option ConnectionId)
    (hquiet : Quiet flux (.event e)) :
    Follows o h₀ leaving flux (h.broadcastToRoom channel e exclude).1 :=
  hf.deliver ((hf.receivers_members channel).filter _) hquiet

theorem sendTo {p : Peer} (hp : p ∈ h.registered) {e : Event} (hquiet : Quiet flux (.event e)) :
    Follows o h₀ leaving flux (h.sendTo p e).1 :=
  hf.deliver (receivers_singleton hp) hquiet

theorem count (f : Counters → Counters) : Follows o h₀ leaving flux (h.count f) :=
  ⟨hf.toConsistentBut.count f, hf.users_nodup, hf.hears⟩

/-- A change of the rooms puts the seats that it touches into flux. -/
theorem withRooms {rooms : Rooms} (hc : ({ h with rooms } : Hub).ConsistentBut leaving)
    {flux' : Finset Seat} (hrooms : ∀ s ∉ flux', s ∉ flux ∧
      (s ∈ ({ h with rooms } : Hub).roster ↔ s ∈ h.roster)) :
    Follows o h₀ leaving flux' { h with rooms } := by
  refine ⟨hc, hf.users_nodup, fun ho => ?_⟩
  obtain ⟨fs, hfs, hagree⟩ := hf.hears ho
  exact ⟨fs, hfs, fun s hs => (hagree s (hrooms s hs).1).trans (hrooms s hs).2.symm⟩

/-- The announcement that a user left settles the user's seat, if that is empty by then. -/
theorem announceLeft {user : UserId} {channel : ChannelId} (hout : (channel, user) ∉ h.roster) :
    Follows o h₀ leaving (flux.erase (channel, user))
      (announceLeft Hub.deliver user channel h) := by
  have hleft (view : Finset Seat) : hear view (.event (.left channel user)) =
      view.erase (channel, user) := rfl
  have hquiet : Quiet (insert (channel, user) flux) (leftFrame channel user) := by
    intro s hs view
    rw [Finset.mem_insert, not_or] at hs
    rw [leftFrame, hleft, Finset.mem_erase]
    exact and_iff_right hs.1
  have hroom := (hf.mono (Finset.subset_insert (channel, user) flux)).deliver
    (hf.receivers_members channel) hquiet
  refine hroom.settle hroom.receivers_registered fun s hs => ?_
  by_cases heq : s = (channel, user)
  · refine Or.inr ⟨id, fun view => ?_⟩
    rw [hleft, heq]
    refine iff_of_false (Finset.notMem_erase _ _) fun hin => ?_
    exact hout (hf.roster_deliver_subset (hf.receivers_members channel) hin)
  · refine Or.inl ⟨?_, fun view => ?_⟩
    · rw [Finset.mem_insert, not_or]
      exact ⟨heq, fun hin => hs (Finset.mem_erase.mpr ⟨heq, hin⟩)⟩
    · rw [hleft, Finset.mem_erase]
      exact and_iff_right heq

end Follows

/-- One who joins a room gets the list of its users, and is announced unless that is too much
for it. -/
theorem joinRoom_cases {h : Hub} {p : Peer} (hopen : (h.connection p).queue.closed = false)
    (channel : ChannelId) :
    ∃ users, let sent := (Hub.sendTo p ⟨.voiceRoomState, .roomState ⟨channel, users⟩⟩
        { h with rooms := ⟨Rooms.insert channel p h.rooms.rooms⟩ }).1
      ((sent.connection p).isOpen = false ∧ (h.joinRoom p channel).1 = sent) ∨
        (h.joinRoom p channel).1 = ((sent.broadcastToRoom channel (.joined channel p.user)
          (some p.id)).1.broadcast (.joined channel p.user)).1 := by
  let others := (h.rooms.members channel).filter fun m => m.id != p.id && m.user != p.user
  refine ⟨distinctNames (others.map (·.user)), ?_⟩
  simp only [Hub.joinRoom, Rooms.join, hopen, Bool.false_eq_true, if_false]
  split
  next hgone =>
    simp only [Bool.and_eq_true, Bool.not_eq_true'] at hgone
    exact Or.inl ⟨hgone.2, rfl⟩
  next => exact Or.inr rfl

section Seats

variable {h : Hub} (hc : h.Consistent) {p : Peer} (hp : h.Knows p)

include hc hp

/-- Entering a room touches one seat. -/
theorem mem_roster_enter (hopen : (h.connection p).queue.closed = false) {channel : ChannelId}
    {s : Seat} (hs : s ≠ (channel, p.user)) :
    s ∈ ({ h with rooms := ⟨Rooms.insert channel p h.rooms.rooms⟩ } : Hub).roster ↔
      s ∈ h.roster := by
  rw [mem_roster (hc.enter hp hopen channel).toWellFormed, mem_roster hc.toWellFormed]
  simp only [Rooms.mem_members_insert]
  constructor
  · rintro ⟨m, ⟨hchannel, rfl⟩ | ⟨hm, _⟩, huser⟩
    · exact absurd (Prod.ext hchannel huser.symm) hs
    · exact ⟨m, hm, huser⟩
  · rintro ⟨m, hm, huser⟩
    refine ⟨m, Or.inr ⟨hm, fun hchannel hid => ?_⟩, huser⟩
    have hsame := hc.distinguishes hp m (hc.mem_registered_of_mem_members hm) hid
    exact hs (Prod.ext hchannel (huser.symm.trans (congrArg Peer.user hsame)))

/-- So does leaving one. -/
theorem mem_members_exit {channel c : ChannelId} {q : Peer} :
    q ∈ (h.rooms.leave channel p.id).1.members c ↔
      q ∈ h.rooms.members c ∧ ¬ (c = channel ∧ q = p) := by
  rw [Rooms.mem_members_leave hc.rooms]
  apply and_congr_right
  intro hq
  have hid : q.id = p.id ↔ q = p :=
    ⟨hc.distinguishes hp q (hc.mem_registered_of_mem_members hq), congrArg Peer.id⟩
  rw [ne_eq, ne_eq, hid, not_and_or]

theorem mem_roster_exit {channel : ChannelId} {s : Seat} (hs : s ≠ (channel, p.user)) :
    s ∈ ({ h with rooms := (h.rooms.leave channel p.id).1 } : Hub).roster ↔ s ∈ h.roster := by
  rw [mem_roster (hc.exit channel p.id).toWellFormed, mem_roster hc.toWellFormed]
  simp only [mem_members_exit hc hp]
  constructor
  · rintro ⟨m, ⟨hm, _⟩, huser⟩
    exact ⟨m, hm, huser⟩
  · rintro ⟨m, hm, huser⟩
    refine ⟨m, ⟨hm, ?_⟩, huser⟩
    rintro ⟨hchannel, rfl⟩
    exact hs (Prod.ext hchannel huser.symm)

theorem mem_roster_detach {s : Seat} (hs : s.1 ∈ h.rooms.roomsOf p → s.2 ≠ p.user) :
    s ∈ (h.detach p).roster ↔ s ∈ h.roster := by
  have hd := hc.distinguishes hp
  rw [mem_roster (hc.toWellFormed.detach hd), mem_roster hc.toWellFormed]
  simp only [mem_detach_members hc.toWellFormed hd]
  constructor
  · rintro ⟨m, ⟨hm, _⟩, huser⟩
    exact ⟨m, hm, huser⟩
  · rintro ⟨m, hm, huser⟩
    refine ⟨m, ⟨hm, ?_⟩, huser⟩
    rintro rfl
    exact hs (hc.mem_roomsOf.mpr hm) huser.symm

end Seats

namespace Follows

variable {o : Peer} {h : Hub} {p : Peer}

/-- Of users with one connection each, the one who has left a room is no longer in it. -/
theorem leaveRoom (hf : Follows o h none ∅ h) (hp : h.Knows p) (channel : ChannelId) :
    Follows o h none ∅ (h.leaveRoom p channel).1 := by
  simp only [Hub.leaveRoom]
  split
  next hin =>
    have hd := hf.rooms_distinguishes (hf.toConsistentBut.distinguishes hp)
    have hmem : p ∈ h.rooms.members channel := (Rooms.contains_iff hd channel).mp hin
    have hexit := Consistent.exit hf.toConsistentBut channel p.id
    have hmoved : Follows o h none {(channel, p.user)}
        { h with rooms := (h.rooms.leave channel p.id).1 } := by
      apply hf.withRooms hexit
      intro s hs
      rw [Finset.mem_singleton] at hs
      exact ⟨Finset.notMem_empty s, mem_roster_exit hf.toConsistentBut hp hs⟩
    have hout : (channel, p.user) ∉
        ({ h with rooms := (h.rooms.leave channel p.id).1 } : Hub).roster := by
      rw [mem_roster hexit.toWellFormed]
      rintro ⟨m, hm, huser⟩
      obtain ⟨hm, hne⟩ := (mem_members_exit hf.toConsistentBut hp).mp hm
      exact hne ⟨rfl, List.inj_on_of_nodup_map hf.users_nodup
        (hf.mem_registered_of_mem_members hm) (hf.mem_registered_of_mem_members hmem) huser⟩
    have hsettled := hmoved.announceLeft hout
    rwa [Finset.erase_singleton] at hsettled
  next => exact hf

/-- Whoever is taken off the hub has its seats announced one after another. -/
theorem unregister (hf : Follows o h none ∅ h) (hp : h.Knows p) :
    Follows o h none ∅ (h.unregister p).1 := by
  have hd := hf.toConsistentBut.distinguishes hp
  -- the seats of the rooms that are still to be told of are empty already
  have hseats (channels : List ChannelId) : ∀ g : Hub,
      Follows o h (some p) (channels.map fun c => (c, p.user)).toFinset g →
      (∀ c ∈ channels, (c, p.user) ∉ g.roster) →
      Follows o h (some p) ∅
        (channels.foldl (fun g c => Hub.announceLeft Hub.deliver p.user c g) g) := by
    induction channels with
    | nil => exact fun g hg _ => hg
    | cons c cs ih =>
      intro g hg hout
      apply ih
      · refine (hg.announceLeft (hout c List.mem_cons_self)).mono ?_
        intro s hs
        obtain ⟨hne, hin⟩ := Finset.mem_erase.mp hs
        simp only [List.map_cons, List.toFinset_cons, Finset.mem_insert] at hin
        exact hin.resolve_left hne
      · intro c' hc' hin
        have hsub := hg.roster_announceLeft_subset p.user c
        exact hout c' (List.mem_cons_of_mem c hc') (hsub hin)
  have hdetached : Follows o h (some p) ((h.rooms.roomsOf p).map fun c => (c, p.user)).toFinset
      (h.detach p) := by
    refine ⟨hf.toConsistentBut.detach hp rfl,
      hf.users_nodup.sublist (List.filter_sublist.map _), fun ho => ?_⟩
    obtain ⟨fs, hfs, hagree⟩ := hf.hears ((mem_detach_registered hd).mp ho).1
    refine ⟨fs, ?_, fun s hs => (hagree s (Finset.notMem_empty s)).trans ?_⟩
    · rw [← hfs]
      exact waiting_update p o (fun c => c.beginClose.closeQueue) h fun c => by
        change c.beginClose.queue.waiting = c.queue.waiting
        rw [Connection.queue_beginClose]
    · refine (mem_roster_detach hf.toConsistentBut hp fun hroom huser => hs ?_).symm
      exact List.mem_toFinset.mpr (List.mem_map.mpr ⟨s.1, hroom, Prod.ext rfl huser.symm⟩)
  have hout : ∀ c ∈ h.rooms.roomsOf p, (c, p.user) ∉ (h.detach p).roster := by
    intro c hc hin
    obtain ⟨m, hm, huser⟩ := (mem_roster hdetached.toWellFormed).mp hin
    obtain ⟨hm, hne⟩ := (mem_detach_members hf.toWellFormed hd).mp hm
    exact hne (List.inj_on_of_nodup_map hf.users_nodup (hf.mem_registered_of_mem_members hm)
      (hf.mem_registered_of_mem_members (hf.mem_roomsOf.mp hc)) huser)
  have hsettled := hseats _ _ hdetached hout
  have hunregister := unregister_eq hf.toWellFormed hd
  refine ⟨Consistent.unregister hf.toConsistentBut hp, ?_, fun ho => ?_⟩
  · rw [hunregister]
    exact hsettled.users_nodup
  · rw [hunregister] at ho ⊢
    obtain ⟨fs, hfs, hagree⟩ := hsettled.hears ho
    exact ⟨fs, (waiting_update p o Connection.markClosed _ fun _ => rfl).trans hfs, hagree⟩

/-- The news of a new member, first to the room and then to everyone, settles its seat. -/
theorem announceJoined {h₀ : Hub} {channel : ChannelId}
    (hf : Follows o h₀ none {(channel, p.user)} h) (hmem : p ∈ h.rooms.members channel)
    (hin : p ∈ ((h.broadcastToRoom channel (.joined channel p.user) (some p.id)).1.broadcast
      (.joined channel p.user)).1.registered) :
    Follows o h₀ none ∅ ((h.broadcastToRoom channel (.joined channel p.user)
      (some p.id)).1.broadcast (.joined channel p.user)).1 := by
  have hroom := hf.broadcastToRoom channel (some p.id) (quiet_joined channel p.user)
  have hmem' : p ∈ (h.broadcastToRoom channel (.joined channel p.user)
      (some p.id)).1.rooms.members channel := by
    refine hf.mem_members_deliver ((hf.receivers_members channel).filter _) ?_ hmem
    exact hroom.registered_deliver_subset hroom.receivers_registered hin
  refine hroom.settle hroom.receivers_registered fun s _ => ?_
  by_cases heq : s = (channel, p.user)
  · refine Or.inr ⟨id, fun view => ?_⟩
    rw [heq]
    apply iff_of_true
    · exact Finset.mem_insert_self (channel, p.user) view
    · exact (mem_roster hroom.toWellFormed).mpr ⟨p, hmem', rfl⟩
  · have hout : s ∉ ({(channel, p.user)} : Finset Seat) := by rwa [Finset.mem_singleton]
    exact Or.inl ⟨hout, quiet_joined channel p.user s hout⟩

/-- One who joins a room and stays is announced. -/
theorem joinRoom (hf : Follows o h none ∅ h) (hp : h.Knows p) {channel : ChannelId}
    (hstays : p ∈ h.registered → p ∈ (h.joinRoom p channel).1.registered) :
    Follows o h none ∅ (h.joinRoom p channel).1 := by
  cases hclosed : (h.connection p).queue.closed with
  | true =>
    simp only [Hub.joinRoom, Rooms.join, hclosed, if_true]
    exact hf
  | false =>
    have hreg := Consistent.mem_registered_of_queue_open hf.toConsistentBut hp hclosed
    have hentered : Follows o h none {(channel, p.user)}
        { h with rooms := ⟨Rooms.insert channel p h.rooms.rooms⟩ } := by
      apply hf.withRooms (Consistent.enter hf.toConsistentBut hp hclosed channel)
      intro s hs
      rw [Finset.mem_singleton] at hs
      exact ⟨Finset.notMem_empty s, mem_roster_enter hf.toConsistentBut hp hclosed hs⟩
    have hmem : p ∈ Rooms.members ⟨Rooms.insert channel p h.rooms.rooms⟩ channel :=
      Rooms.mem_members_insert.mpr (Or.inl ⟨rfl, rfl⟩)
    have hin := hstays hreg
    obtain ⟨users, hcases⟩ := joinRoom_cases hclosed channel
    have hquiet : Quiet {(channel, p.user)}
        (.event ⟨.voiceRoomState, .roomState ⟨channel, users⟩⟩) := fun _ _ _ => Iff.rfl
    have hsent := hentered.sendTo hreg hquiet
    rcases hcases with ⟨hgone, heq⟩ | heq
    · -- the list of users was one frame too many, and `p` has not stayed
      rw [heq] at hin
      rw [hsent.isOpen hin] at hgone
      cases hgone
    · rw [heq] at hin ⊢
      have hkept := hsent.broadcastToRoom channel (some p.id) (quiet_joined channel p.user)
      have hthere := hkept.registered_deliver_subset hkept.receivers_registered hin
      refine hsent.announceJoined ?_ hin
      refine hentered.mem_members_deliver (receivers_singleton hreg) ?_ hmem
      exact hsent.registered_deliver_subset ((hsent.receivers_members channel).filter _) hthere

theorem relaySignal (hf : Follows o h none ∅ h) (p : Peer) (kind : SignalKind) (s : Signal) :
    Follows o h none ∅ (h.relaySignal p kind s).1 := by
  have hquiet : Quiet ∅ (.event (signalEvent p kind s)) := by
    intro _ _ _
    cases kind with
    | offer => exact Iff.rfl
    | answer => exact Iff.rfl
    | ice => exact Iff.rfl
  by_cases hmay : h.MaySignal p s
  · rw [relaySignal_of_maySignal hmay]
    exact (hf.sendToUser s.target hquiet).count fun n =>
      { n with signalsRelayed := n.signalsRelayed + 1 }
  · rw [relaySignal_of_not_maySignal hmay]
    exact hf.count fun n => { n with signalsDropped := n.signalsDropped + 1 }

theorem reportMedia (hf : Follows o h none ∅ h) (p : Peer) (r : MediaReport) :
    Follows o h none ∅ (h.reportMedia p r) := by
  rw [Hub.reportMedia]
  split
  next => exact hf.broadcastToRoom _ _ fun _ _ _ => Iff.rfl
  next => exact hf

theorem view (hf : Follows o h none ∅ h) (hp : h.Knows p) (channel : Option ChannelId) :
    Follows o h none ∅ (h.update p (Connection.view channel)) := by
  refine ⟨hf.toConsistentBut.update hp (fun _ => rfl) rfl rfl fun _ hfits =>
    ⟨hfits.capacity_eq, hfits.length_le⟩, hf.users_nodup, fun ho => ?_⟩
  obtain ⟨fs, hfs, hagree⟩ := hf.hears ho
  exact ⟨fs, (waiting_update p o (Connection.view channel) h fun _ => rfl).trans hfs, hagree⟩

theorem handle (hf : Follows o h none ∅ h) (hp : h.Knows p) {command : Command}
    (hstays : ∀ channel, command = .voiceJoin channel → p ∈ h.registered →
      p ∈ (h.handle p command).registered) :
    Follows o h none ∅ (h.handle p command) := by
  unfold Hub.handle at hstays ⊢
  cases hopen : (h.connection p).isOpen with
  | false =>
    simp only [Bool.false_eq_true, if_false]
    exact hf
  | true =>
    simp only [hopen, if_true] at hstays ⊢
    cases command with
    | subscribe channel => exact hf.view hp channel
    | typing channel => exact hf.broadcastToChannel channel fun _ _ _ => Iff.rfl
    | voiceJoin channel => exact hf.joinRoom hp (hstays channel rfl)
    | voiceLeave channel => exact hf.leaveRoom hp channel
    | signal kind s => exact hf.relaySignal p kind s
    | mediaState report => exact hf.reportMedia p report
    | ping =>
      have hreg := Consistent.mem_registered_of_isOpen hf.toConsistentBut hp hopen
      exact hf.sendTo hreg fun _ _ _ => Iff.rfl
    | unknown tag => exact hf

end Follows

/-- The connection that an operation puts into a room. -/
def Operation.joiner? : Operation → Option Nat
  | .join c _ => some c
  | .handle c (.voiceJoin _) => some c
  | .handleText c text =>
      match Command.decode text with
      | .ok (.voiceJoin _) => some c
      | _ => none
  | _ => none

/-- One who joins a room is not removed meanwhile. -/
def KeepsJoiner (h : Hub) (op : Operation) : Prop :=
  ∀ p ∈ h.registered, op.joiner? = some p.handle → p ∈ (h.perform op).1.registered

/-- `o` is registered, and nobody has more than one connection. -/
def OneEach (h : Hub) (o : Peer) : Prop :=
  o ∈ h.registered ∧ (h.registered.map Peer.user).Nodup

/-- A history in which `o` stays, users have one connection each at any time, and one who joins a
room is not removed meanwhile. -/
def Orderly (o : Peer) : Hub → List Operation → Prop
  | h, [] => h.OneEach o
  | h, op :: ops => h.OneEach o ∧ h.KeepsJoiner op ∧ Orderly o (h.perform op).1 ops

instance (h : Hub) (op : Operation) : Decidable (h.KeepsJoiner op) :=
  inferInstanceAs (Decidable (∀ p ∈ h.registered, _ → p ∈ (h.perform op).1.registered))

instance (h : Hub) (o : Peer) : Decidable (h.OneEach o) :=
  inferInstanceAs (Decidable (_ ∧ _))

instance decidableOrderly (o : Peer) : (h : Hub) → (ops : List Operation) →
    Decidable (Orderly o h ops)
  | h, [] => inferInstanceAs (Decidable (h.OneEach o))
  | h, op :: ops =>
      have := decidableOrderly o (h.perform op).1 ops
      inferInstanceAs (Decidable (h.OneEach o ∧ h.KeepsJoiner op ∧ Orderly o _ ops))

theorem Follows.replay_eq {o : Peer} {h h' : Hub} (hf : Follows o h none ∅ h')
    (ho : o ∈ h'.registered) : replay (gained h h' o) h.roster = h'.roster := by
  obtain ⟨fs, hfs, hagree⟩ := hf.hears ho
  rw [gained_eq_of_append hfs]
  exact Finset.ext fun s => hagree s (Finset.notMem_empty s)

theorem replay_of_rooms_eq {o : Peer} {h h' : Hub} (hgained : gained h h' o = [])
    (hrooms : h'.rooms = h.rooms) : replay (gained h h' o) h.roster = h'.roster := by
  rw [hgained, roster, roster, hrooms]
  rfl

section Perform

variable {o : Peer} {h : Hub}

theorem Follows.withPeer (hf : Follows o h none ∅ h) (c : Nat) {f : Peer → Hub × Outcome}
    (hpeer : ∀ p, h.peer? c = some p → Follows o h none ∅ (f p).1) :
    Follows o h none ∅ (h.withPeer c f).1 := by
  rw [Hub.withPeer]
  split
  next p hp => exact hpeer p hp
  next => exact hf

theorem Follows.perform (hf : Follows o h none ∅ h) {op : Operation}
    (hop : op.throughHub = true) (hraw : op.isRaw = false) (hreading : op.isReading = false)
    (hconnect : ∀ user, op ≠ .connect user) (hjoin : h.KeepsJoiner op) :
    Follows o h none ∅ (h.perform op).1 := by
  have hknows {c : Nat} {p : Peer} (hp : h.peer? c = some p) : h.Knows p :=
    (Consistent.keyed hf.toConsistentBut).knows_of_peer? hp
  have hjoiner {c : Nat} {p : Peer} (hp : h.peer? c = some p) (hc : op.joiner? = some c)
      (hreg : p ∈ h.registered) : p ∈ (h.perform op).1.registered :=
    hjoin p hreg (by rw [hc, hf.numbered c p hp])
  cases op with
  | unregister c => exact hf.withPeer c fun p hp => hf.unregister (hknows hp)
  | handle c command =>
    refine hf.withPeer c fun p hp => hf.handle (hknows hp) ?_
    rintro channel rfl hreg
    have hin := hjoiner hp rfl hreg
    rwa [perform_handle hp] at hin
  | handleText c text =>
    refine hf.withPeer c fun p hp => ?_
    cases hdecode : Command.decode text with
    | error e =>
      simp only [handleText, hdecode]
      exact hf
    | ok command =>
      simp only [handleText, hdecode]
      refine hf.handle (hknows hp) ?_
      rintro channel rfl hreg
      have hin := hjoiner hp (by simp only [Operation.joiner?, hdecode]) hreg
      rwa [perform_handleText_of_ok hdecode, perform_handle hp] at hin
  | join c channel =>
    refine hf.withPeer c fun p hp => hf.joinRoom (hknows hp) fun hreg => ?_
    have hin := hjoiner hp rfl hreg
    rwa [Hub.perform, Hub.withPeer, hp] at hin
  | leave c channel => exact hf.withPeer c fun p hp => hf.leaveRoom (hknows hp) channel
  | relay c kind s => exact hf.withPeer c fun p _ => hf.relaySignal p kind s
  | publishMessage message digest =>
    exact (hf.broadcastToChannel digest.channel fun _ _ _ => Iff.rfl).broadcast
      fun _ _ _ => Iff.rfl
  | publishEdit channel message => exact hf.broadcastToChannel channel fun _ _ _ => Iff.rfl
  | publishDeletion channel message => exact hf.broadcastToChannel channel fun _ _ _ => Iff.rfl
  | publishReactions channel reactions =>
    exact hf.broadcastToChannel channel fun _ _ _ => Iff.rfl
  | publishServerEvent e =>
    cases hkind : e.kind.isServerWide with
    | false =>
      simp only [Hub.perform, Hub.publishServerEvent, hkind, Bool.false_eq_true, if_false]
      exact hf
    | true =>
      simp only [Hub.perform, Hub.publishServerEvent, hkind, if_true]
      refine hf.broadcast fun s _ view => ?_
      rw [hear_of_isServerWide hkind]
  | connect user => exact absurd rfl (hconnect user)
  | take | abandon => cases hreading
  | broadcast | broadcastToChannel | sendToUser | broadcastToRoom | sendTo => cases hraw
  | create | register | activate | beginClose | closeQueue | markClosed | send | view
  | enterRoom | exitRoom | exitRooms => cases hop

/-- A reader changes nothing but its own queue. -/
theorem perform_of_isReading {op : Operation} (hreading : op.isReading = true) :
    ∃ table, (h.perform op).1 = { h with table } := by
  cases op with
  | take c =>
    simp only [Hub.perform, Hub.withPeer]
    split
    · split
      · exact ⟨_, rfl⟩
      · exact ⟨_, rfl⟩
    · exact ⟨_, rfl⟩
  | abandon c =>
    simp only [Hub.perform, Hub.withPeer]
    split
    · exact ⟨_, rfl⟩
    · exact ⟨_, rfl⟩
  | _ => cases hreading

/-- A new connection is in no room, and nobody is told of it. -/
theorem Consistent.replay_connect (hc : h.Consistent) (o : Peer) (user : UserId) :
    replay (gained h (h.perform (.connect user)).1 o) h.roster =
      (h.perform (.connect user)).1.roster := by
  simp only [Hub.perform]
  split
  next h' p hok =>
    have hstep : Steps true (fun _ _ => True) h h' := hc.keyed.steps_connect hok
    exact replay_of_rooms_eq (hstep.reads rfl o) (connected_of_connect hok).rooms
  next => exact replay_of_rooms_eq (gained_eq_nil_of_le (Nat.le_refl _)) rfl

/-- What `o` hears of an operation takes its list to the hub's own. -/
theorem Consistent.replay_perform (hc : h.Consistent) (hone : h.OneEach o) {op : Operation}
    (hop : op.throughHub = true) (hraw : op.isRaw = false) (hjoin : h.KeepsJoiner op)
    (ho : o ∈ (h.perform op).1.registered) :
    replay (gained h (h.perform op).1 o) h.roster = (h.perform op).1.roster := by
  cases hreading : op.isReading with
  | true =>
    obtain ⟨table, htable⟩ := perform_of_isReading (h := h) hreading
    apply replay_of_rooms_eq ((hc.keyed.steps_perform hraw).reads hreading o)
    rw [htable]
  | false =>
    by_cases hconnect : ∃ user, op = .connect user
    · obtain ⟨user, rfl⟩ := hconnect
      exact hc.replay_connect o user
    · exact ((Follows.start hc hone.2 o).perform hop hraw hreading
        (fun user heq => hconnect ⟨user, heq⟩) hjoin).replay_eq ho

theorem Orderly.oneEach {ops : List Operation} (horderly : Orderly o h ops) : h.OneEach o := by
  cases ops with
  | nil => exact horderly
  | cons op ops => exact horderly.1

theorem Consistent.replay_run (hc : h.Consistent) {ops : List Operation}
    (hops : ∀ op ∈ ops, op.throughHub = true ∧ op.isRaw = false) (horderly : Orderly o h ops) :
    replay (arrivals o h ops) h.roster = (Hub.run h ops).roster := by
  induction ops generalizing h with
  | nil => rfl
  | cons op ops ih =>
    obtain ⟨hone, hjoin, hrest⟩ := horderly
    obtain ⟨hop, hraw⟩ := hops op List.mem_cons_self
    rw [arrivals, replay_append, hc.replay_perform hone hop hraw hjoin hrest.oneEach.1]
    exact ih (hc.perform hop) (fun o ho => hops o (List.mem_cons_of_mem op ho)) hrest

end Perform

/-- While users have one connection each, a listener who starts from the users of all rooms and
keeps count of those who join and leave has, at any later time, exactly the users of all rooms. -/
theorem replay_arrivals_eq_roster (limits : Limits) {past ops : List Operation} {o : Peer}
    (hpast : ∀ op ∈ past, op.throughHub = true)
    (hops : ∀ op ∈ ops, op.throughHub = true ∧ op.isRaw = false)
    (horderly : Orderly o (run (new limits) past) ops) :
    replay (arrivals o (run (new limits) past) ops) (run (new limits) past).roster =
      (run (new limits) (past ++ ops)).roster := by
  rw [run_append]
  exact ((consistent_new limits).run hpast).replay_run hops horderly

/-- Bob listens while Ann joins two rooms, one of them twice, and hangs up. -/
theorem bob_keeps_count :
    let h := run (new .standard) [.connect "ann", .connect "bob", .connect "eve", .join 2 "den"]
    replay (arrivals ⟨1, .fresh 1, "bob"⟩ h
      [.join 0 "hall", .take 1, .join 0 "den", .join 0 "hall", .unregister 0]) h.roster =
        {("den", "eve")} := by
  have hpast : ∀ op ∈ [Operation.connect "ann", .connect "bob", .connect "eve", .join 2 "den"],
      op.throughHub = true := by decide
  have hops : ∀ op ∈ [Operation.join 0 "hall", .take 1, .join 0 "den", .join 0 "hall",
      .unregister 0], op.throughHub = true ∧ op.isRaw = false := by decide
  intro h
  rw [replay_arrivals_eq_roster .standard hpast hops (by decide +kernel)]
  decide +kernel

end ChatHub.Hub
