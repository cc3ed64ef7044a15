import ChatHub.Proofs.Hub.Accounting
import ChatHub.Proofs.Hub.Tidiness
/-!
Who hears that somebody has left a room.  Any number of connections may go in one operation, each
because of the news of another; still every name that a room loses is announced once to the room and
once to everyone, and whoever stays to the end has heard all of it, and nothing twice.
-/

namespace ChatHub

namespace Hub

/-- Nobody else goes by the name of `p`. -/
def OwnName (h : Hub) (p : Peer) : Prop := ∀ q, h.Knows q → q.id = p.id → q = p

/-- The connections of a user with which a room has lost a name each: it was in the room before and
is there no more.  Whoever of the user has left is one of them, unless others go by the same
name. -/
structure Leavers (h : Hub) (channel : ChannelId) (user : UserId) (before after : Occupancy)
    (gone : Finset Peer) : Prop where
  of_user : ∀ d ∈ gone, h.Knows d ∧ d.user = user
  named : ∀ d ∈ gone, ∃ q, (channel, q) ∈ before ∧ q.id = d.id
  away : ∀ d ∈ gone, ∀ q, (channel, q) ∈ after → q.id ≠ d.id
  distinct : ∀ d ∈ gone, ∀ d' ∈ gone, d.id = d'.id → d = d'
  complete : ∀ q, h.Knows q → h.OwnName q → q.user = user → (channel, q) ∈ before →
    (channel, q) ∉ after → q ∈ gone

/-- How many times `c` gets what is told to a room and then to everyone. -/
def copies (h : Hub) (c : Peer) (channel : ChannelId) : Nat :=
  (if c ∈ h.rooms.members channel then 1 else 0) + (if c ∈ h.registered then 1 else 0)

/-- A connection that is being taken down and has left its rooms. -/
structure TakenDown (h : Hub) (c : Peer) : Prop where
  closing : (h.connection c).isOpen = false
  queue_closed : (h.connection c).queue.closed = true
  outside : ∀ room, c ∉ h.rooms.members room

/-- `c` is where it was, in the set and in the room, unless it has been taken down. -/
def Stays (c : Peer) (channel : ChannelId) (h h' : Hub) : Prop :=
  (c ∈ h.registered → c ∈ h'.registered) ∧
    (c ∈ h.rooms.members channel → c ∈ h'.rooms.members channel) ∨ h'.TakenDown c

/-- The way from `h₀` to `h` as `c` hears of it.  Of each connection of `user` that has left the
room, where the places that were `taken` count, it has been told as many times as is due to it,
except for `n` frames that are still to come.  That much is so in the case `P`. -/
structure Hears (P : Prop) (c : Peer) (channel : ChannelId) (user : UserId) (taken : Occupancy)
    (n : Nat) (h₀ h : Hub) : Prop extends Course (fun _ _ => True) h₀ h where
  stays : Stays c channel h₀ h
  told : P → (h.connection c).isOpen = true →
    ∃ gone, Leavers h₀ channel user taken h.rooms.occupancy gone ∧
      (gained h₀ h c).count (leftFrame channel user) + n = gone.card * h₀.copies c channel

section Stays

variable {c : Peer} {channel : ChannelId} {new : Nat → Frame → Prop} {h h' h'' : Hub}

theorem Stays.refl (c : Peer) (channel : ChannelId) (h : Hub) : Stays c channel h h :=
  Or.inl ⟨id, id⟩

theorem Stays.of_eq (hregistered : h'.registered = h.registered) (hrooms : h'.rooms = h.rooms) :
    Stays c channel h h' :=
  Or.inl ⟨fun hc => hregistered ▸ hc, fun hc => hrooms ▸ hc⟩

theorem TakenDown.later (hd : h.TakenDown c) (hg : Grows new h h')
    (hsub : ∀ room, h'.rooms.members room ⊆ h.rooms.members room) : h'.TakenDown c where
  closing := (hg.connection c).not_open hd.closing
  queue_closed := (hg.connection c).closed hd.queue_closed
  outside := fun room hin => hd.outside room (hsub room hin)

theorem Stays.trans (hs : Stays c channel h h') (hg : Grows new h' h'')
    (hsub : ∀ room, h''.rooms.members room ⊆ h'.rooms.members room)
    (hs' : Stays c channel h' h'') : Stays c channel h h'' := by
  rcases hs with ⟨hset, hroom⟩ | hdown
  · rcases hs' with ⟨hset', hroom'⟩ | hdown
    · exact Or.inl ⟨hset' ∘ hset, hroom' ∘ hroom⟩
    · exact Or.inr hdown
  · exact Or.inr (hdown.later hg hsub)

/-- One who has a name of its own and whom nobody has taken down is where it was. -/
theorem Stays.detach {d : Peer} (hown : h.OwnName c) (hd : h.Knows d) (hrooms : h.rooms.Valid) :
    Stays c channel h (h.detach d) := by
  have hmem {room : ChannelId} : c ∈ (h.detach d).rooms.members room ↔
      c ∈ h.rooms.members room ∧ c.id ≠ d.id := by
    simp only [Hub.detach, Rooms.leaveAll_rooms, Rooms.mem_members_restrict _ hrooms, bne_iff_ne]
  by_cases heq : c = d
  · subst heq
    refine Or.inr ⟨?_, ?_, fun room hin => (hmem.mp hin).2 rfl⟩
    · rw [detach_connection_self]
      exact isOpen_beginClose _
    · rw [detach_connection_self]
      rfl
  · have hname : c.id ≠ d.id := fun hid => heq (hown d hd hid.symm).symm
    exact Or.inl ⟨fun hc => List.mem_filter.mpr ⟨hc, bne_iff_ne.mpr hname⟩,
      fun hc => hmem.mpr ⟨hc, hname⟩⟩

end Stays

section Leavers

variable {h : Hub} {channel : ChannelId} {user : UserId} {before o o' : Occupancy}
  {gone : Finset Peer} {d : Peer}

theorem Leavers.none (hsub : before ⊆ o) : Leavers h channel user before o ∅ where
  of_user := by simp
  named := by simp
  away := by simp
  distinct := by simp
  complete := fun _ _ _ _ hin hout => absurd (hsub hin) hout

theorem Leavers.of_table_eq {h₀ : Hub} (hl : Leavers h₀ channel user before o gone)
    (htable : h₀.table = h.table) : Leavers h channel user before o gone := by
  have hknows (q : Peer) : h.Knows q ↔ h₀.Knows q := by simp only [Knows, peer?, htable]
  refine ⟨fun d hd => ?_, hl.named, hl.away, hl.distinct, fun q hq hown => ?_⟩
  · rw [hknows]
    exact hl.of_user d hd
  · exact hl.complete q ((hknows q).mp hq) fun r hr => hown r ((hknows r).mpr hr)

/-- One leaver more, if the room loses the name of `d` and `d` is of the user. -/
theorem Leavers.lose (hl : Leavers h channel user before o gone) (hsub : o ⊆ before)
    (hd : h.Knows d) {leaves : Prop} [Decidable leaves]
    (hleaves : leaves → ∃ q, (channel, q) ∈ o ∧ q.id = d.id)
    (hafter : ∀ q, (channel, q) ∈ o' ↔ (channel, q) ∈ o ∧ ¬(leaves ∧ q.id = d.id)) :
    ∃ gone', Leavers h channel user before o' gone' ∧
      gone'.card = gone.card + if leaves ∧ d.user = user then 1 else 0 := by
  have haway : ∀ e ∈ gone, ∀ q, (channel, q) ∈ o' → q.id ≠ e.id :=
    fun e he q hq => hl.away e he q ((hafter q).mp hq).1
  have hlater : ∀ q, h.Knows q → h.OwnName q → q.user = user → (channel, q) ∈ before →
      (channel, q) ∉ o' → q ∈ gone ∨ leaves ∧ q = d := by
    intro q hq hown huser hin hout
    by_cases hstill : (channel, q) ∈ o
    · rw [hafter, not_and, not_not] at hout
      obtain ⟨hleave, hid⟩ := hout hstill
      exact Or.inr ⟨hleave, (hown d hd hid.symm).symm⟩
    · exact Or.inl (hl.complete q hq hown huser hin hstill)
  by_cases hit : leaves ∧ d.user = user
  · obtain ⟨m, hm, hname⟩ := hleaves hit.1
    have hnew {e : Peer} (he : e ∈ gone) : d.id ≠ e.id := hname ▸ hl.away e he m hm
    refine ⟨insert d gone, ⟨?of_user, ?named, ?away, ?distinct, ?complete⟩, ?card⟩
    case of_user => exact Finset.forall_mem_insert .. |>.mpr ⟨⟨hd, hit.2⟩, hl.of_user⟩
    case named => exact Finset.forall_mem_insert .. |>.mpr ⟨⟨m, hsub hm, hname⟩, hl.named⟩
    case away =>
      refine Finset.forall_mem_insert .. |>.mpr ⟨fun q hq hid => ?_, haway⟩
      exact ((hafter q).mp hq).2 ⟨hit.1, hid⟩
    case distinct =>
      intro e he e' he' hid
      rcases Finset.mem_insert.mp he with rfl | hold
      · exact ((Finset.mem_insert.mp he').resolve_right fun hold => hnew hold hid).symm
      · rcases Finset.mem_insert.mp he' with rfl | hold'
        · exact absurd hid.symm (hnew hold)
        · exact hl.distinct e hold e' hold' hid
    case complete =>
      intro q hq hown huser hin hout
      rcases hlater q hq hown huser hin hout with hold | ⟨_, rfl⟩
      · exact Finset.mem_insert_of_mem hold
      · exact Finset.mem_insert_self q gone
    case card =>
      rw [Finset.card_insert_of_notMem fun hold => hnew hold rfl, if_pos hit]
  · refine ⟨gone, ⟨hl.of_user, hl.named, haway, hl.distinct, ?_⟩, by rw [if_neg hit, Nat.add_zero]⟩
    intro q hq hown huser hin hout
    refine (hlater q hq hown huser hin hout).resolve_right fun ⟨hleave, heq⟩ => ?_
    exact hit ⟨hleave, heq ▸ huser⟩

end Leavers

section Detach

variable {own : Nat → Frame → Prop} {h₀ h : Hub} {user : UserId} {taken : Occupancy} {d : Peer}
  (hk : h₀.Tidy) (hw : Course own h₀ h)

include hk hw

theorem Course.occupancy_subset (htaken : h₀.rooms.occupancy ⊆ taken) :
    h.rooms.occupancy ⊆ taken := by
  rintro ⟨room, q⟩ hq
  exact htaken (hk.rooms.mem_occupancy.mpr (hw.members room (hw.rooms.mem_occupancy.mp hq)))

/-- Taking `d` off makes its name leave the rooms in which somebody goes by it. -/
theorem Course.leavers_detach (htaken : h₀.rooms.occupancy ⊆ taken) (hd : h₀.Knows d)
    {channel : ChannelId} {gone : Finset Peer}
    (hl : Leavers h₀ channel user taken h.rooms.occupancy gone) :
    ∃ gone', Leavers h₀ channel user taken (h.detach d).rooms.occupancy gone' ∧
      gone'.card = gone.card +
        if channel ∈ (h.rooms.leaveAll d.id).2 ∧ d.user = user then 1 else 0 := by
  apply hl.lose (hw.occupancy_subset hk htaken) hd
  · intro hleaves
    obtain ⟨m, hm, hid⟩ :=
      Rooms.contains_iff_exists.mp (Rooms.contains_of_mem_leaveAll hw.rooms hleaves)
    exact ⟨m, hw.rooms.mem_occupancy.mpr hm, hid⟩
  · intro q
    simp only [Hub.detach, Rooms.leaveAll_rooms, hw.rooms.occupancy_restrict, Finset.mem_filter,
      bne_iff_ne]
    refine and_congr_right fun hin => ?_
    rw [not_and']
    refine ⟨fun hname hid => absurd hid hname, fun hout hid => hout hid ?_⟩
    exact Rooms.mem_leaveAll_of_contains
      (Rooms.contains_iff_exists.mpr ⟨q, hw.rooms.mem_occupancy.mp hin, hid⟩)

end Detach

namespace Hears

variable {P : Prop} {c : Peer} {channel : ChannelId} {user : UserId} {taken : Occupancy}
  {m n : Nat} {h₀ h h' : Hub}

theorem start (ht : h.Tidy)
    (hn : P → ∃ gone, Leavers h channel user taken h.rooms.occupancy gone ∧
      n = gone.card * h.copies c channel) :
    Hears P c channel user taken n h h where
  toCourse := .start ht _
  stays := .refl c channel h
  told := by
    intro hP _
    rw [gained_eq_nil_of_le (Nat.le_refl _), List.count_nil, Nat.zero_add]
    exact hn hP

variable (hw : Hears P c channel user taken m h₀ h)

include hw

/-- While it has not been taken down, it is where it was from the start. -/
theorem mem_iff (hopen : (h.connection c).isOpen = true) :
    (c ∈ h.registered ↔ c ∈ h₀.registered) ∧
      (c ∈ h.rooms.members channel ↔ c ∈ h₀.rooms.members channel) := by
  obtain ⟨hset, hroom⟩ := hw.stays.resolve_right fun hdown =>
    Bool.false_ne_true (hdown.closing.symm.trans hopen)
  exact ⟨⟨fun hc => hw.grows.registered.subset hc, hset⟩,
    ⟨fun hc => hw.members channel hc, hroom⟩⟩

/-- One step further, on which so many frames are said or come to be due. -/
theorem extend (hcourse : Course (fun _ _ => True) h₀ h') (hg : Grows (fun _ _ => True) h h')
    (hsub : ∀ room, h'.rooms.members room ⊆ h.rooms.members room)
    (hstays : Stays c channel h h')
    (htold : P → (h.connection c).isOpen = true → (h'.connection c).isOpen = true → ∀ gone,
      Leavers h₀ channel user taken h.rooms.occupancy gone →
        ∃ gone', Leavers h₀ channel user taken h'.rooms.occupancy gone' ∧
          (gained h h' c).count (leftFrame channel user) + n + gone.card * h₀.copies c channel =
            m + gone'.card * h₀.copies c channel) :
    Hears P c channel user taken n h₀ h' where
  toCourse := hcourse
  stays := hw.stays.trans hg hsub hstays
  told := by
    intro hP hopen
    have hbefore := (hg.connection c).isOpen hopen
    obtain ⟨gone, hl, hsaid⟩ := hw.told hP hbefore
    obtain ⟨gone', hl', hlater⟩ := htold hP hbefore hopen gone hl
    refine ⟨gone', hl', ?_⟩
    rw [gained_trans hw.grows hg, List.count_append]
    omega

/-- A step on which nothing is said and nobody goes. -/
theorem keep (hg : Grows (fun _ _ => True) h h') (hregistered : h'.registered = h.registered)
    (hrooms : h'.rooms = h.rooms) (hpending : h'.pending ⊆ h.pending)
    (hwaiting : (h'.connection c).queue.waiting = (h.connection c).queue.waiting) :
    Hears P c channel user taken m h₀ h' := by
  apply hw.extend _ hg (fun _ => hrooms ▸ List.Subset.refl _) (.of_eq hregistered hrooms)
  · intro _ _ _ gone hl
    refine ⟨gone, hrooms ▸ hl, ?_⟩
    rw [gained_eq_nil_of_le (Nat.le_of_eq (congrArg List.length hwaiting)), List.count_nil,
      Nat.zero_add]
  · exact hw.toCourse.extend (hg.mono fun _ _ => Or.inl) (hrooms ▸ hw.rooms)
      (fun _ => hrooms ▸ List.Subset.refl _) fun _ hd => Or.inl (hpending hd)

theorem count (f : Counters → Counters) : Hears P c channel user taken m h₀ (h.count f) :=
  hw.keep (.of_table_eq rfl rfl (.refl _)) rfl rfl (List.Subset.refl _) rfl

end Hears

section Deliveries

variable {P : Prop} {c : Peer} {channel : ChannelId} {user : UserId} {taken : Occupancy}
  {m n : Nat} {h₀ h : Hub}

/-- A way to deliver on which nothing gets lost: a frame that is due is so no more for those it went
to, and the removals that it sets off are announced. -/
def Faithful (P : Prop) (c : Peer) (channel : ChannelId) (user : UserId) (taken : Occupancy)
    (h₀ : Hub) (via : Delivery) : Prop :=
  ∀ {m n : Nat} {h : Hub} {f : Frame} {ts : List Peer},
    Hears P c channel user taken m h₀ h → (∀ p ∈ ts, h₀.Knows p) → ts.Nodup →
    (P → (h.connection c).isOpen = true →
      m = n + if f = leftFrame channel user ∧ c ∈ ts then 1 else 0) →
    Hears P c channel user taken n h₀ (via f ts h).1

variable (hk : h₀.Tidy) (hc : h₀.Knows c)

include hk in
theorem Hears.registered_nodup (hw : Hears P c channel user taken m h₀ h) : h.registered.Nodup :=
  hk.registered_nodup.sublist hw.grows.registered

include hc in
theorem faithful_offer : Faithful P c channel user taken h₀ offer := by
  intro m n h f ts hw hts hnodup hm
  have hknown {p : Peer} (hp : h₀.Knows p) : h.Knows p := (hw.grows.peer? p.handle).trans hp
  have hcourse : Course (fun _ _ => True) h₀ (offer f ts h).1 :=
    hw.toCourse.offer hts fun _ _ => Or.inl trivial
  have hrooms : (offer f ts h).1.rooms = h.rooms := offer_rooms f ts h
  apply hw.extend hcourse (.offer h fun _ _ => trivial)
    (fun _ => hrooms ▸ List.Subset.refl _) (.of_eq (offer_registered f ts h) hrooms)
  intro hP hopen hlater gone hl
  refine ⟨gone, hrooms ▸ hl, ?_⟩
  rw [hm hP hopen]
  rw [offer_connection f (fun q hq => hknown (hts q hq)) hnodup (hknown hc)] at hlater
  have hgained : gained h (offer f ts h).1 c = if c ∈ ts then [f] else [] := by
    apply gained_eq_of_append
    rw [offer_connection f (fun q hq => hknown (hts q hq)) hnodup (hknown hc),
      Connection.offerAll_of_le_free hopen ((Connection.isOpen_offerAll_iff _ hopen).mp hlater)]
    rfl
  rw [hgained]
  by_cases hmem : c ∈ ts
  · by_cases hf : f = leftFrame channel user
    · simp only [hmem, hf, and_self, if_true, List.count_singleton_self]
      omega
    · simp only [hmem, hf, false_and, if_true, if_false, List.count_singleton, beq_iff_eq]
      omega
  · simp only [hmem, and_false, if_false, List.count_nil]
    omega

section Removal

variable {via : Delivery} (hvia : Faithful P c channel user taken h₀ via)

include hk hvia

/-- An announcement goes out twice, so that both copies are due before it. -/
theorem Hears.announceLeft {room : ChannelId} {who : UserId}
    (hw : Hears P c channel user taken
      (n + if room = channel ∧ who = user then h₀.copies c channel else 0) h₀ h) :
    Hears P c channel user taken n h₀ (announceLeft via who room h) := by
  let toAll : Nat :=
    if leftFrame room who = leftFrame channel user ∧ c ∈ h₀.registered then 1 else 0
  have hfirst : Hears P c channel user taken (n + toAll) h₀
      (via (leftFrame room who) (h.rooms.members room) h).1 := by
    apply hvia hw (fun p hp => hw.knows_of_mem_members hk hp) (hw.rooms.members_nodup room)
    intro _ hopen
    have hroom := (hw.mem_iff hopen).2
    by_cases hit : room = channel ∧ who = user
    · obtain ⟨rfl, rfl⟩ := hit
      simp only [copies, toAll, and_self, true_and, if_true, hroom]
      omega
    · have hother : leftFrame room who ≠ leftFrame channel user :=
        fun heq => hit (leftFrame_inj.mp heq)
      simp only [hit, hother, toAll, false_and, if_false]
  apply hvia hfirst (fun p hp => hfirst.knows_of_mem_registered hk hp) (hfirst.registered_nodup hk)
  intro _ hopen
  simp only [toAll, (hfirst.mem_iff hopen).1]
  rfl

/-- Each room is announced in its turn, and at most one of them is the one in question. -/
theorem Hears.announceAll {rooms : List ChannelId} {who : UserId} (hnodup : rooms.Nodup)
    (hw : Hears P c channel user taken
      (n + if channel ∈ rooms ∧ who = user then h₀.copies c channel else 0) h₀ h) :
    Hears P c channel user taken n h₀
      (rooms.foldl (fun h room => Hub.announceLeft via who room h) h) := by
  induction rooms generalizing h with
  | nil => simpa using hw
  | cons room rooms ih =>
    obtain ⟨hfirst, hrest⟩ := List.nodup_cons.mp hnodup
    apply ih hrest
    apply Hears.announceLeft hk hvia
    have hdue : (n + if channel ∈ room :: rooms ∧ who = user then h₀.copies c channel else 0) =
        (n + if channel ∈ rooms ∧ who = user then h₀.copies c channel else 0) +
          if room = channel ∧ who = user then h₀.copies c channel else 0 := by
      by_cases heq : room = channel
      · subst heq
        simp only [List.mem_cons, true_or, hfirst, false_and, true_and, if_false, Nat.add_zero]
      · simp only [List.mem_cons, Ne.symm heq, heq, false_or, false_and, if_false, Nat.add_zero]
    exact hdue ▸ hw

variable (hown : h₀.OwnName c) (htaken : h₀.rooms.occupancy ⊆ taken)
  {d : Peer} (hd : h₀.Knows d)

include hown htaken hd

omit hvia in
/-- Whoever is taken off leaves the room, if it was in it, before that is announced. -/
theorem Hears.detach (hw : Hears P c channel user taken n h₀ h) :
    Hears P c channel user taken
      (n + if channel ∈ (h.rooms.leaveAll d.id).2 ∧ d.user = user then h₀.copies c channel else 0)
      h₀ (h.detach d) := by
  have hown' : h.OwnName c := fun q hq => hown q ((hw.grows.peer? q.handle).symm.trans hq)
  have hd' : h.Knows d := (hw.grows.peer? d.handle).trans hd
  apply hw.extend (hw.toCourse.detach d) (.detach _ d h)
    (fun _ => Rooms.members_leaveAll_subset hw.rooms) (.detach hown' hd' hw.rooms)
  intro _ _ hlater gone hl
  have hne : c.handle ≠ d.handle := by
    intro heq
    have hclosed : ((h.detach d).connection c).isOpen = false := by
      rw [connection, heq]
      exact (congrArg Connection.isOpen detach_connection_self).trans (isOpen_beginClose _)
    exact Bool.false_ne_true (hclosed.symm.trans hlater)
  have hquiet : gained h (h.detach d) c = [] := by
    apply gained_eq_nil_of_le
    rw [detach_connection_of_ne hne]
  obtain ⟨gone', hl', hcard⟩ := hw.leavers_detach hk htaken hd hl
  refine ⟨gone', hl', ?_⟩
  rw [hquiet, List.count_nil, hcard]
  split
  next =>
    rw [Nat.add_mul]
    omega
  next =>
    simp only [Nat.add_zero]
    omega

theorem Hears.remove (hw : Hears P c channel user taken n h₀ h) :
    Hears P c channel user taken n h₀ (remove via d h).1 := by
  have hnodup : (h.rooms.leaveAll d.id).2.Nodup := Rooms.leaveAll_channels_nodup hw.rooms d.id
  have hannounced := Hears.announceAll hk hvia hnodup (hw.detach hk hown htaken hd)
  rw [remove_eq]
  refine hannounced.keep ?_ rfl rfl (List.Subset.refl _) ?_
  · exact .update _ d _ (fun _ => rfl) fun c => .markClosed _ c
  · exact waiting_update d c Connection.markClosed _ fun _ => rfl

end Removal

section Eviction

variable (hown : h₀.OwnName c) (htaken : h₀.rooms.occupancy ⊆ taken)

include hk hc hown htaken

theorem Hears.evict (hw : Hears P c channel user taken n h₀ h) {d : Peer} (hd : h₀.Knows d) :
    Hears P c channel user taken n h₀ (evict d h) := by
  have hremoved := hw.remove hk (faithful_offer hc) hown htaken hd
  simp only [Hub.evict]
  split
  next => exact hremoved.count _
  next => exact hremoved

theorem Hears.evictPending (hw : Hears P c channel user taken n h₀ h) :
    Hears P c channel user taken n h₀ h.evictPending := by
  induction h using Hub.evictPending.induct with
  | case1 h hnil =>
    rw [evictPending_of_nil hnil]
    exact hw
  | case2 h d rest hcons ih =>
    have hpopped : Hears P c channel user taken n h₀ { h with pending := rest } :=
      hw.keep (.of_table_eq rfl rfl (.refl _)) rfl rfl (hcons ▸ List.subset_cons_self d rest) rfl
    obtain ⟨hknown, _⟩ := hw.listed d (hcons ▸ List.mem_cons_self)
    rw [evictPending_of_cons hcons]
    exact ih (hpopped.evict hk hc hown htaken hknown)

theorem Hears.drain (hw : Hears P c channel user taken n h₀ h) :
    Hears P c channel user taken n h₀ h.drain := by
  have hset {g : Hub} (hg : Hears P c channel user taken n h₀ g) (b : Bool) :
      Hears P c channel user taken n h₀ { g with draining := b } :=
    hg.keep (.of_table_eq rfl rfl (.refl _)) rfl rfl (List.Subset.refl _) rfl
  rw [Hub.drain]
  split
  next => exact hw
  next => exact hset ((hset hw true).evictPending hk hc hown htaken) false

theorem faithful_deliver : Faithful P c channel user taken h₀ deliver := by
  intro m n h f ts hw hts hnodup hm
  have hrecorded : Hears P c channel user taken n h₀ (record (push f ts h)) :=
    faithful_offer hc hw hts hnodup hm
  simp only [Hub.deliver]
  split
  next => exact hrecorded
  next => exact hrecorded.drain hk hc hown htaken

end Eviction

end Deliveries

section Events

variable {P : Prop} {c : Peer} {channel : ChannelId} {user : UserId} {taken : Occupancy} {n : Nat}
  {h₀ h : Hub} (hk : h₀.Tidy) (hc : h₀.Knows c) (hown : h₀.OwnName c)
  (htaken : h₀.rooms.occupancy ⊆ taken) {e : Event} (he : P → e ≠ .left channel user)
  (hw : Hears P c channel user taken n h₀ h)

include hk hc hown htaken he hw

/-- An event that tells of something else. -/
theorem Hears.send {ts : List Peer} (hts : ∀ p ∈ ts, h₀.Knows p) (hnodup : ts.Nodup) :
    Hears P c channel user taken n h₀ (deliver (.event e) ts h).1 := by
  apply faithful_deliver hk hc hown htaken hw hts hnodup
  intro hcase _
  rw [if_neg, Nat.add_zero]
  exact fun heq => he hcase (Frame.event.inj heq.1)

theorem Hears.broadcastWhere (sel : Connection → Bool) :
    Hears P c channel user taken n h₀ (h.broadcastWhere sel e).1 :=
  hw.send hk hc hown htaken he
    (fun _ hp => hw.knows_of_mem_registered hk (List.mem_filter.mp hp).1)
    ((hw.registered_nodup hk).filter _)

theorem Hears.broadcast : Hears P c channel user taken n h₀ (h.broadcast e).1 :=
  hw.send hk hc hown htaken he (fun _ hp => hw.knows_of_mem_registered hk hp)
    (hw.registered_nodup hk)

theorem Hears.sendToUser (target : UserId) :
    Hears P c channel user taken n h₀ (h.sendToUser target e).1 :=
  hw.send hk hc hown htaken he
    (fun _ hp => hw.knows_of_mem_registered hk (List.mem_filter.mp hp).1)
    ((hw.registered_nodup hk).filter _)

theorem Hears.broadcastToRoom (room : ChannelId) (exclude : Option ConnectionId) :
    Hears P c channel user taken n h₀ (h.broadcastToRoom room e exclude).1 :=
  hw.send hk hc hown htaken he
    (fun _ hp => hw.knows_of_mem_members hk (List.mem_filter.mp hp).1)
    ((hw.rooms.members_nodup room).filter _)

theorem Hears.sendTo {p : Peer} (hp : h₀.Knows p) :
    Hears P c channel user taken n h₀ (h.sendTo p e).1 :=
  hw.send hk hc hown htaken he (fun _ hq => List.mem_singleton.mp hq ▸ hp)
    (List.nodup_singleton p)

end Events

end Hub

end ChatHub
