import ChatHub.Proofs.Hub.Accounting
/-!
Several connections taken off one after another.  Each goes with the cascade that its announcements
set off, and a later one may be evicted by an earlier one's; but who is gone in the end is again a
least set, and all that is said tells of those in it, so that the order leaves no trace.
-/

namespace ChatHub

/-- The rooms without those in a set. -/
def Rooms.outside (gone : Finset Peer) (rs : Rooms) : Rooms :=
  rs.restrict fun _ p => decide (p ∉ gone)

theorem Rooms.without_eq_outside (gone : List Peer) (rs : Rooms) :
    rs.without gone = rs.outside gone.toFinset := by
  simp only [without, outside, List.mem_toFinset]

theorem Rooms.outside_outside (rs : Rooms) (gone gone' : Finset Peer) :
    (rs.outside gone).outside gone' = rs.outside (gone ∪ gone') := by
  rw [outside, outside, outside, restrict_restrict]
  simp only [Finset.mem_union, not_or, Bool.decide_and]

theorem Connection.shut_shut (c : Connection) : c.shut.shut = c.shut := by
  have hclosed : c.shut.isOpen = false := rfl
  have hstays : c.shut.beginClose = c.shut := by
    rw [beginClose, hclosed, if_neg Bool.false_ne_true]
  rw [shut, hstays]
  rfl

namespace Hub

/-- All that is told to `c` of those in `gone`. -/
def news (h : Hub) (gone : Finset Peer) (c : Peer) : Multiset Frame :=
  ∑ d ∈ gone, (h.farewells d c : Multiset Frame)

/-- Whoever is not in `gone` has room for what is `said` to it and for the news of `gone`. -/
def Bears (h : Hub) (said : Peer → Multiset Frame) (gone : Finset Peer) : Prop :=
  ∀ c ∈ h.registered, c ∉ gone →
    (said c + h.news gone c).card ≤ (h.connection c).queue.free

theorem news_union {h : Hub} {X Y : Finset Peer} (hdisjoint : Disjoint X Y) (c : Peer) :
    h.news (X ∪ Y) c = h.news X c + h.news Y c :=
  Finset.sum_union hdisjoint

section Rooms

variable {h h' : Hub} (hw : h.WellFormed) {gone : Finset Peer}
  (hrooms : h'.rooms = h.rooms.outside gone)

include hw hrooms

theorem mem_members_outside {c : Peer} {channel : ChannelId} :
    c ∈ h'.rooms.members channel ↔ c ∈ h.rooms.members channel ∧ c ∉ gone := by
  rw [hrooms, Rooms.outside, Rooms.mem_members_restrict _ hw.rooms, decide_eq_true_eq]

theorem roomsOf_outside (d : Peer) :
    h'.rooms.roomsOf d = if d ∈ gone then [] else h.rooms.roomsOf d := by
  split
  next hd =>
    have hvalid : h'.rooms.Valid := hrooms ▸ hw.rooms.restrict _
    rw [List.eq_nil_iff_forall_not_mem]
    intro channel hroom
    rw [Rooms.mem_roomsOf hvalid.channels_nodup, mem_members_outside hw hrooms] at hroom
    exact hroom.2 hd
  next hd =>
    rw [hrooms]
    exact Rooms.roomsOf_restrict fun _ => decide_eq_true hd

/-- One who is gone has nothing more to tell, and the others have as much as before. -/
theorem farewells_outside (d : Peer) {c : Peer} (hc : c ∉ gone) :
    h'.farewells d c = if d ∈ gone then [] else h.farewells d c := by
  rw [farewells, roomsOf_outside hw hrooms]
  split
  next => rfl
  next => simp only [mem_members_outside hw hrooms, hc, not_false_eq_true, and_true, farewells]

theorem news_outside (X : Finset Peer) {c : Peer} (hc : c ∉ gone) :
    h'.news X c = h.news (X \ gone) c := by
  simp only [news, farewells_outside hw hrooms _ hc]
  rw [Finset.sdiff_eq_filter, Finset.sum_filter]
  apply Finset.sum_congr rfl
  intro d _
  by_cases hd : d ∈ gone
  · simp only [hd, if_true, not_true_eq_false, if_false]
    rfl
  · simp only [hd, if_false, not_false_eq_true, if_true]

end Rooms

/-- From `h` to `h'` all in `gone` have been taken down: those in `asked` on request and, if the
words are weighed as in `Bears`, none of the others needlessly.  Beside the news of them, `n`
deliveries have told those who stay what is `said`. -/
structure Parted (h : Hub) (asked : Finset Peer) (said : Peer → Multiset Frame) (n : Nat)
    (gone : Finset Peer) (h' : Hub) : Prop extends h'.Quiescent where
  peer? : ∀ i, h'.peer? i = h.peer? i
  registered_eq : h'.registered = h.registered.filter fun p => p ∉ gone
  rooms_eq : h'.rooms = h.rooms.outside gone
  tally_eq : h'.tally = h.tally + n
  asked_subset : asked ⊆ gone
  gone_registered : ∀ d ∈ gone, d ∈ h.registered
  least : ∀ X, asked ⊆ X → h.Bears said X → gone ⊆ X
  bears : h.Bears said gone
  taken : ∀ c ∈ h.registered, c ∉ gone → ∃ fs : List Frame,
    h'.connection c = (h.connection c).taking fs ∧ (fs : Multiset Frame) = said c + h.news gone c
  shut : ∀ d ∈ gone, (h'.connection d).shut = h'.connection d
  bystander : ∀ q, q.handle ∉ h.registered.map Peer.handle → h'.connection q = h.connection q

theorem Quiescent.parted_self {h : Hub} (hq : h.Quiescent) : Parted h ∅ (fun _ => 0) 0 ∅ h where
  toQuiescent := hq
  peer? := fun _ => rfl
  registered_eq := by simp
  rooms_eq := (Rooms.restrict_eq_self hq.rooms.inhabited fun _ _ _ _ => by simp).symm
  tally_eq := rfl
  asked_subset := Finset.Subset.refl _
  gone_registered := by simp
  least := fun X _ _ => Finset.empty_subset X
  bears := fun _ _ _ => Nat.zero_le _
  taken := fun c _ _ => ⟨[], (Connection.taking_nil _).symm, rfl⟩
  shut := by simp
  bystander := fun _ _ => rfl

/-- A single event, whatever it sets off. -/
theorem Quiescent.parted_post {h : Hub} (hq : h.Quiescent) {a : Address} (ha : a.Registered h)
    (e : Event) : Parted h ∅ (fun c => if c ∈ a.audience h then {.event e} else 0) 1
      (h.evictedBy (h.post a e)) (h.post a e) := by
  obtain ⟨gone, hd⟩ := exists_delivered hq (.event e) (receivers_audience hq.toWellFormed ha)
  rw [← post_eq_deliver] at hd
  rw [hd.evictedBy_eq]
  have howed {X : Finset Peer} {c : Peer} (hc : c ∉ X) :
      h.owed a e X c = (if c ∈ a.audience h then {.event e} else 0) + h.news X c := by
    rw [owed, Finset.erase_eq_of_notMem hc, news]
  constructor
  case toQuiescent => exact hd.quiescent hq
  case peer? => exact hd.peer?
  case registered_eq => simp only [hd.registered, List.mem_toFinset]
  case rooms_eq => rw [hd.rooms, Rooms.without_eq_outside]
  case tally_eq => exact hd.tally_eq hq.toWellFormed
  case asked_subset => exact Finset.empty_subset _
  case gone_registered => exact fun d hin => hd.gone_registered d (List.mem_toFinset.mp hin)
  case least =>
    intro X _ hX
    apply hd.subset_of_absorbs hq
    intro c hc hfull
    by_contra hout
    rw [howed hout] at hfull
    exact absurd (hX c hc hout) (Nat.not_le_of_lt hfull)
  case bears =>
    intro c hc hout
    rw [← howed hout]
    by_contra hfull
    exact hout (hd.absorbs hq c hc (Nat.lt_of_not_le hfull))
  case taken =>
    intro c hc hout
    refine ⟨_, hd.survivor_takes hq hc (fun hin => hout (List.mem_toFinset.mpr hin)), ?_⟩
    rw [coe_owedInTurn hd.gone_nodup, howed hout]
  case shut =>
    intro d hin
    rw [hd.removed d (List.mem_toFinset.mp hin), Connection.shut_shut]
  case bystander => exact hd.bystander

namespace Parted

variable {h h' h'' : Hub} {asked asked' gone gone' : Finset Peer}
  {said said' more : Peer → Multiset Frame} {n n' : Nat}

theorem mem_registered (hp : Parted h asked said n gone h') {c : Peer} :
    c ∈ h'.registered ↔ c ∈ h.registered ∧ c ∉ gone := by
  rw [hp.registered_eq, List.mem_filter, decide_eq_true_eq]

/-- What one who stays has taken is missing from its room. -/
theorem free_add (hp : Parted h asked said n gone h') {c : Peer} (hc : c ∈ h.registered)
    (hout : c ∉ gone) :
    (h'.connection c).queue.free + (said c + h.news gone c).card =
      (h.connection c).queue.free := by
  obtain ⟨fs, hfs, hsum⟩ := hp.taken c hc hout
  have hroom := hp.bears c hc hout
  rw [← hsum, Multiset.coe_card] at hroom ⊢
  rw [hfs, Connection.free_taking]
  omega

/-- The news of more than are gone: those that have been taken, and what is left to tell. -/
theorem news_eq (hw : h.WellFormed) (hp : Parted h asked said n gone h') {c : Peer}
    (hc : c ∉ gone) {X : Finset Peer} (hsub : gone ⊆ X) :
    h.news X c = h.news gone c + h'.news X c := by
  rw [news_outside hw hp.rooms_eq X hc, ← news_union Finset.disjoint_sdiff,
    Finset.union_sdiff_of_subset hsub]

/-- The handle of one who is gone belongs to nobody who stays. -/
theorem handle_not_mem (hw : h.WellFormed) (hp : Parted h asked said n gone h') {d : Peer}
    (hd : d ∈ gone) : d.handle ∉ h'.registered.map Peer.handle := by
  intro hin
  obtain ⟨q, hq, heq⟩ := List.mem_map.mp hin
  obtain ⟨hreg, hstays⟩ := hp.mem_registered.mp hq
  have hknown := hw.known d (hp.gone_registered d hd)
  exact hstays ((hw.known q hreg).eq_of_handle hknown heq ▸ hd)

/-- Two parts have nobody in common: the first leaves nobody to the second who is gone. -/
theorem disjoint (h₁ : Parted h asked said n gone h') (h₂ : Parted h' asked' said' n' gone' h'') :
    Disjoint gone gone' := by
  rw [Finset.disjoint_left]
  exact fun d hd hd' => (h₁.mem_registered.mp (h₂.gone_registered d hd')).2 hd

/-- One part after the other.  What is said in the second part is written in terms of `h`. -/
theorem trans (hw : h.WellFormed) (h₁ : Parted h asked said n gone h')
    (h₂ : Parted h' asked' said' n' gone' h'') (hmore : ∀ c ∈ h'.registered, said' c = more c) :
    Parted h (asked ∪ asked') (fun c => said c + more c) (n + n') (gone ∪ gone') h'' := by
  have hdisjoint := h₁.disjoint h₂
  -- nothing that the second part tells concerns those who went in the first
  have hlater {c : Peer} (hc : c ∉ gone) : h'.news gone' c = h.news gone' c := by
    rw [news_outside hw h₁.rooms_eq gone' hc, Finset.sdiff_eq_self_of_disjoint hdisjoint.symm]
  constructor
  case toQuiescent => exact h₂.toQuiescent
  case peer? => exact fun i => (h₂.peer? i).trans (h₁.peer? i)
  case registered_eq =>
    rw [h₂.registered_eq, h₁.registered_eq, List.filter_filter]
    apply List.filter_congr
    intro q _
    simp only [Finset.mem_union, not_or, Bool.decide_and, Bool.and_comm]
  case rooms_eq => rw [h₂.rooms_eq, h₁.rooms_eq, Rooms.outside_outside]
  case tally_eq => rw [h₂.tally_eq, h₁.tally_eq, Nat.add_assoc]
  case asked_subset => exact Finset.union_subset_union h₁.asked_subset h₂.asked_subset
  case gone_registered =>
    intro d hd
    rcases Finset.mem_union.mp hd with hold | hnew
    · exact h₁.gone_registered d hold
    · exact (h₁.mem_registered.mp (h₂.gone_registered d hnew)).1
  case least =>
    intro X hasked hX
    have hfirst : gone ⊆ X := by
      apply h₁.least X (Finset.union_subset_left hasked)
      intro c hc hout
      have hroom := hX c hc hout
      simp only [Multiset.card_add] at hroom ⊢
      omega
    refine Finset.union_subset hfirst (h₂.least X (Finset.union_subset_right hasked) ?_)
    intro c hc hout
    obtain ⟨hreg, hstays⟩ := h₁.mem_registered.mp hc
    have hroom := hX c hreg hout
    rw [h₁.news_eq hw hstays hfirst] at hroom
    have hleft := h₁.free_add hreg hstays
    rw [hmore c hc]
    simp only [Multiset.card_add] at hroom hleft ⊢
    omega
  case bears =>
    intro c hc hout
    rw [Finset.mem_union, not_or] at hout
    have hc' := h₁.mem_registered.mpr ⟨hc, hout.1⟩
    have hroom := h₂.bears c hc' hout.2
    have hleft := h₁.free_add hc hout.1
    rw [hmore c hc', hlater hout.1] at hroom
    rw [news_union hdisjoint]
    simp only [Multiset.card_add] at hroom hleft ⊢
    omega
  case taken =>
    intro c hc hout
    rw [Finset.mem_union, not_or] at hout
    have hc' := h₁.mem_registered.mpr ⟨hc, hout.1⟩
    obtain ⟨fs, hfs, hsum⟩ := h₁.taken c hc hout.1
    obtain ⟨gs, hgs, hsum'⟩ := h₂.taken c hc' hout.2
    refine ⟨fs ++ gs, by rw [hgs, hfs, Connection.taking_taking], ?_⟩
    rw [← Multiset.coe_add, hsum, hsum', hmore c hc', news_union hdisjoint, hlater hout.1]
    exact add_add_add_comm _ _ _ _
  case shut =>
    intro d hd
    rcases Finset.mem_union.mp hd with hold | hnew
    · rw [h₂.bystander d (h₁.handle_not_mem hw hold)]
      exact h₁.shut d hold
    · exact h₂.shut d hnew
  case bystander =>
    intro q hq
    have hq' : q.handle ∉ h'.registered.map Peer.handle := by
      intro hin
      obtain ⟨r, hr, heq⟩ := List.mem_map.mp hin
      exact hq (heq ▸ List.mem_map_of_mem (h₁.mem_registered.mp hr).1)
    rw [h₂.bystander q hq', h₁.bystander q hq]

end Parted

/-- The two announcements of a leaving as they come to one who stays. -/
def told (h : Hub) (user : UserId) (c : Peer) (channel : ChannelId) : Multiset Frame :=
  (if c ∈ h.rooms.members channel then {leftFrame channel user} else 0) +
    {leftFrame channel user}

theorem coe_farewells (h : Hub) (d c : Peer) :
    (h.farewells d c : Multiset Frame) = ((h.rooms.roomsOf d).map (h.told d.user c)).sum := by
  rw [farewells, coe_flatMap]
  congr 2
  funext channel
  rw [told, ← Multiset.coe_add]
  congr 1
  split
  · rfl
  · rfl

theorem announceLeft_eq_post (user : UserId) (channel : ChannelId) (h : Hub) :
    announceLeft deliver user channel h =
      (h.post (.room channel none) (.left channel user)).post .everyone (.left channel user) := by
  have hall : (Address.room channel none).audience h = h.rooms.members channel := by
    simp [Address.audience]
  rw [post_eq_deliver, post_eq_deliver, hall]
  rfl

section Announce

variable {h : Hub} (hw : h.WellFormed) (user : UserId)

include hw

theorem Parted.announceLeft {h' : Hub} {asked gone : Finset Peer}
    {said : Peer → Multiset Frame} {n : Nat} (hp : Parted h asked said n gone h')
    (channel : ChannelId) : ∃ gone', Parted h asked (fun c => said c + h.told user c channel)
      (n + 2) gone' (announceLeft deliver user channel h') := by
  let e := Event.left channel user
  have hroom := hp.parted_post (a := .room channel none) trivial e
  have hall := hroom.parted_post (a := .everyone) trivial e
  have hmembers : ∀ c ∈ h'.registered,
      (if c ∈ (Address.room channel none).audience h' then {.event e} else 0 : Multiset Frame) =
        if c ∈ h.rooms.members channel then {leftFrame channel user} else 0 := by
    intro c hc
    have hout := (hp.mem_registered.mp hc).2
    have hin : c ∈ (Address.room channel none).audience h' ↔ c ∈ h.rooms.members channel := by
      simp only [Address.audience, ne_eq, reduceCtorEq, not_false_eq_true, decide_true,
        List.filter_true, mem_members_outside hw hp.rooms_eq, hout, and_true]
    simp only [hin]
    rfl
  have hfirst := hp.trans hw hroom hmembers
  have heveryone : ∀ c ∈ (h'.post (.room channel none) e).registered,
      (if c ∈ Address.everyone.audience (h'.post (.room channel none) e) then {.event e} else 0 :
        Multiset Frame) = {leftFrame channel user} := fun c hc => if_pos hc
  have hboth := hfirst.trans hw hall heveryone
  simp only [Finset.union_empty, add_assoc] at hboth
  rw [announceLeft_eq_post]
  exact ⟨_, hboth⟩

theorem Parted.announceAll {h' : Hub} {asked gone : Finset Peer}
    {said : Peer → Multiset Frame} {n : Nat} (hp : Parted h asked said n gone h')
    (channels : List ChannelId) :
    ∃ gone', Parted h asked (fun c => said c + (channels.map (h.told user c)).sum)
      (n + 2 * channels.length) gone'
      (channels.foldl (fun g channel => Hub.announceLeft deliver user channel g) h') := by
  induction channels generalizing h' gone said n with
  | nil =>
    simp only [List.map_nil, List.sum_nil, add_zero]
    exact ⟨gone, hp⟩
  | cons channel channels ih =>
    obtain ⟨gone', hfirst⟩ := hp.announceLeft hw user channel
    obtain ⟨gone'', hrest⟩ := ih hfirst
    refine ⟨gone'', ?_⟩
    have hcount : n + 2 * (channel :: channels).length = n + 2 + 2 * channels.length := by
      rw [List.length_cons]
      omega
    simp only [List.map_cons, List.sum_cons, List.foldl_cons, hcount, ← add_assoc]
    exact hrest

end Announce

section Unregister

variable {h : Hub} (hq : h.Quiescent) {p : Peer} (hp : p ∈ h.registered)

include hq hp

theorem Quiescent.detach_rooms_eq : (h.detach p).rooms = h.rooms.outside {p} := by
  rw [detach_rooms hq.toWellFormed (hq.distinguishes hp), Rooms.without_eq_outside]
  rfl

theorem Quiescent.handle_ne {c : Peer} (hc : c ∈ h.registered) (hne : c ≠ p) :
    c.handle ≠ p.handle :=
  fun heq => hne ((hq.known c hc).eq_of_handle (hq.known p hp) heq)

theorem Quiescent.detach : (h.detach p).Quiescent where
  toWellFormed := hq.toWellFormed.detach (hq.distinguishes hp)
  active := by
    intro c hc
    obtain ⟨hreg, hne⟩ := (mem_detach_registered (hq.distinguishes hp)).mp hc
    rw [detach_connection_of_ne (hq.handle_ne hp hreg hne)]
    exact hq.active c hreg
  queue_open := by
    intro c hc
    obtain ⟨hreg, hne⟩ := (mem_detach_registered (hq.distinguishes hp)).mp hc
    rw [detach_connection_of_ne (hq.handle_ne hp hreg hne)]
    exact hq.queue_open c hreg
  pending := hq.pending
  draining := hq.draining

/-- What is counted of the places of one who leaves is due in announcements. -/
theorem Quiescent.tally_detach :
    (h.detach p).tally + 2 * (h.rooms.roomsOf p).length = h.tally := by
  have hoccupancy : (h.detach p).rooms.occupancy = {s ∈ h.rooms.occupancy | s.2 ≠ p} :=
    hq.rooms.occupancy_leaveAll (hq.rooms_distinguishes (hq.distinguishes hp))
  have hsplit : {s ∈ h.rooms.occupancy | s.2 = p}.card + {s ∈ h.rooms.occupancy | s.2 ≠ p}.card =
      h.rooms.occupancy.card :=
    Finset.card_filter_add_card_filter_not fun s : ChannelId × Peer => s.2 = p
  have hcounters : (h.detach p).counters = h.counters := rfl
  simp only [tally, hcounters, hoccupancy, hq.rooms.length_roomsOf p]
  omega

/-- To the others it is as if the one who leaves were one more of those that are gone. -/
theorem Quiescent.told_add_news_detach {c : Peer} (hne : c ≠ p) {X : Finset Peer} (hX : p ∈ X) :
    ((h.rooms.roomsOf p).map ((h.detach p).told p.user c)).sum + (h.detach p).news X c =
      h.news X c := by
  have hw := hq.toWellFormed
  have htold : (h.detach p).told p.user c = h.told p.user c := by
    funext channel
    simp only [told, mem_detach_members hw (hq.distinguishes hp), hne, ne_eq, not_false_eq_true,
      and_true]
  have hc : c ∉ ({p} : Finset Peer) := fun hin => hne (Finset.mem_singleton.mp hin)
  rw [htold, ← coe_farewells, news_outside hw (hq.detach_rooms_eq hp) X hc,
    Finset.sdiff_singleton_eq_erase]
  exact Finset.add_sum_erase X (fun d => (h.farewells d c : Multiset Frame)) hX

theorem Quiescent.news_detach_insert {c : Peer} (hne : c ≠ p) (X : Finset Peer) :
    (h.detach p).news (insert p X) c = (h.detach p).news X c := by
  have hw := hq.toWellFormed
  have hrooms := hq.detach_rooms_eq hp
  have hc : c ∉ ({p} : Finset Peer) := fun hin => hne (Finset.mem_singleton.mp hin)
  rw [news_outside hw hrooms _ hc, news_outside hw hrooms _ hc,
    Finset.sdiff_singleton_eq_erase, Finset.sdiff_singleton_eq_erase,
    Finset.erase_insert_eq_erase]

omit hp in
/-- It is of no account that one is marked as closed who is no longer registered. -/
theorem Quiescent.markClosed (hout : p.handle ∉ h.registered.map Peer.handle) :
    (h.update p Connection.markClosed).Quiescent := by
  have hsame {c : Peer} (hc : c ∈ h.registered) :
      (h.update p Connection.markClosed).connection c = h.connection c :=
    connection_update_of_ne p c _ h fun heq => hout (heq ▸ List.mem_map_of_mem hc)
  have hpeer := peer?_update p Connection.markClosed h fun _ => rfl
  refine ⟨⟨fun c hc => (hpeer c.handle).trans (hq.known c hc), hq.ids_nodup, hq.rooms,
    hq.members⟩, ?_, ?_, hq.pending, hq.draining⟩
  · exact fun c hc => (congrArg Connection.state (hsame hc)).trans (hq.active c hc)
  · exact fun c hc => (congrArg (·.queue.closed) (hsame hc)).trans (hq.queue_open c hc)

/-- One connection is taken off. -/
theorem Quiescent.exists_parted_unregister :
    ∃ gone, Parted h {p} (fun _ => 0) 0 gone (h.unregister p).1 := by
  have hw := hq.toWellFormed
  have hd := hq.distinguishes hp
  have hg := hq.detach hp
  obtain ⟨gone, hparted⟩ :=
    hg.parted_self.announceAll hg.toWellFormed p.user (h.rooms.roomsOf p)
  simp only [zero_add] at hparted
  rw [unregister_eq hw hd]
  set g := (h.rooms.roomsOf p).foldl
    (fun g channel => Hub.announceLeft deliver p.user channel g) (h.detach p)
  have hleft {c : Peer} (hc : c ∈ (h.detach p).registered) :
      c ∈ h.registered ∧ c ≠ p ∧ c.handle ≠ p.handle := by
    obtain ⟨hreg, hne⟩ := (mem_detach_registered hd).mp hc
    exact ⟨hreg, hne, hq.handle_ne hp hreg hne⟩
  have hstays {c : Peer} (hc : c ∈ h.registered) (hin : c ∉ insert p gone) :
      c ∈ (h.detach p).registered ∧ c ∉ gone ∧ c ≠ p ∧ c.handle ≠ p.handle := by
    rw [Finset.mem_insert, not_or] at hin
    exact ⟨(mem_detach_registered hd).mpr ⟨hc, hin.1⟩, hin.2, hin.1, hq.handle_ne hp hc hin.1⟩
  have hout : p.handle ∉ (h.detach p).registered.map Peer.handle := by
    intro hin
    obtain ⟨c, hc, heq⟩ := List.mem_map.mp hin
    exact (hleft hc).2.2 heq
  have hother {c : Peer} (hne : c.handle ≠ p.handle) :
      (g.update p Connection.markClosed).connection c = g.connection c :=
    connection_update_of_ne p c _ g hne
  refine ⟨insert p gone, ?_⟩
  constructor
  case toQuiescent =>
    apply hparted.toQuiescent.markClosed
    intro hin
    obtain ⟨c, hc, heq⟩ := List.mem_map.mp hin
    exact (hleft (hparted.mem_registered.mp hc).1).2.2 heq
  case peer? =>
    intro i
    rw [peer?_update p Connection.markClosed g (fun _ => rfl), hparted.peer?, detach_peer?]
  case registered_eq =>
    change g.registered = _
    rw [hparted.registered_eq, detach_registered hd, List.filter_filter]
    apply List.filter_congr
    intro q _
    simp only [Finset.mem_insert, List.mem_singleton, not_or, Bool.decide_and, Bool.and_comm]
  case rooms_eq =>
    change g.rooms = _
    rw [hparted.rooms_eq, hq.detach_rooms_eq hp, Rooms.outside_outside, Finset.insert_eq]
  case tally_eq =>
    change g.tally = _
    have hdue := hq.tally_detach hp
    rw [hparted.tally_eq]
    omega
  case asked_subset => exact Finset.singleton_subset_iff.mpr (Finset.mem_insert_self p gone)
  case gone_registered =>
    intro d hin
    rcases Finset.mem_insert.mp hin with rfl | hin
    · exact hp
    · exact ((mem_detach_registered hd).mp (hparted.gone_registered d hin)).1
  case least =>
    intro X hasked hX
    have hpX : p ∈ X := Finset.singleton_subset_iff.mp hasked
    apply Finset.insert_subset hpX
    apply hparted.least X (Finset.empty_subset X)
    intro c hc hin
    obtain ⟨hreg, hne, hhandle⟩ := hleft hc
    have hroom := hX c hreg hin
    rw [zero_add] at hroom
    rw [hq.told_add_news_detach hp hne hpX, detach_connection_of_ne hhandle]
    exact hroom
  case bears =>
    intro c hc hin
    obtain ⟨hreg, hgone, hne, hhandle⟩ := hstays hc hin
    have hroom := hparted.bears c hreg hgone
    rw [← hq.news_detach_insert hp hne, hq.told_add_news_detach hp hne (Finset.mem_insert_self p _),
      detach_connection_of_ne hhandle] at hroom
    rw [zero_add]
    exact hroom
  case taken =>
    intro c hc hin
    obtain ⟨hreg, hgone, hne, hhandle⟩ := hstays hc hin
    obtain ⟨fs, hfs, hsum⟩ := hparted.taken c hreg hgone
    rw [← hq.news_detach_insert hp hne,
      hq.told_add_news_detach hp hne (Finset.mem_insert_self p _)] at hsum
    refine ⟨fs, ?_, hsum.trans (zero_add _).symm⟩
    rw [hother hhandle, hfs, detach_connection_of_ne hhandle]
  case shut =>
    intro d hin
    rcases Finset.mem_insert.mp hin with rfl | hin
    · have hbystander : g.connection d = (h.connection d).beginClose.closeQueue := by
        rw [hparted.bystander d hout, detach_connection_self]
      rw [connection_update_of_handle_eq d d _ g rfl rfl, hbystander]
      exact Connection.shut_shut (h.connection d)
    · rw [hother (hleft (hparted.gone_registered d hin)).2.2]
      exact hparted.shut d hin
  case bystander =>
    intro q hq'
    have hne : q.handle ≠ p.handle := fun heq => hq' (heq ▸ List.mem_map_of_mem hp)
    rw [hother hne, hparted.bystander q, detach_connection_of_ne hne]
    intro hin
    obtain ⟨r, hr, heq⟩ := List.mem_map.mp hin
    exact hq' (heq ▸ List.mem_map_of_mem (hleft hr).1)

end Unregister

/-- One who is gone already is taken off without a trace. -/
theorem unregister_eq_self {h : Hub} {p : Peer} (hw : h.WellFormed) (hp : h.Distinguishes p)
    (hout : p ∉ h.registered) (hshut : (h.connection p).shut = h.connection p) :
    (h.unregister p).1 = h := by
  have hnowhere : h.rooms.roomsOf p = [] := by
    rw [List.eq_nil_iff_forall_not_mem]
    exact fun channel hroom =>
      hout (hw.mem_registered_of_mem_members (hw.mem_roomsOf.mp hroom))
  have hregistered : (h.detach p).registered = h.registered := by
    rw [detach_registered hp, List.filter_eq_self]
    exact fun q hq => decide_eq_true fun hin => hout (List.mem_singleton.mp hin ▸ hq)
  have hrooms : (h.detach p).rooms = h.rooms := by
    rw [detach_rooms hw hp]
    apply Rooms.restrict_eq_self hw.rooms.inhabited
    exact fun r hr q hq => decide_eq_true fun hin =>
      hout (List.mem_singleton.mp hin ▸ hw.members r hr q hq)
  have htable : h.update p Connection.shut = h := update_eq_self hshut
  calc (h.unregister p).1
      = (h.detach p).update p Connection.markClosed := by
        rw [unregister_eq hw hp, hnowhere, List.foldl_nil]
    _ = { h.update p Connection.shut with
          registered := (h.detach p).registered, rooms := (h.detach p).rooms } := by
        simp only [detach, update, List.modify_modify_eq]
        rfl
    _ = h := by rw [htable, hregistered, hrooms]

/-- Takes connections off one after another. -/
def unregisterAll (ps : List Peer) (h : Hub) : Hub := ps.foldl (fun h p => (h.unregister p).1) h

section Order

variable {h h' h'' : Hub} (hq : h.Quiescent)

include hq

theorem Parted.unregister {asked gone : Finset Peer}
    (hpart : Parted h asked (fun _ => 0) 0 gone h') {p : Peer} (hp : p ∈ h.registered) :
    ∃ gone', Parted h (insert p asked) (fun _ => 0) 0 gone' (h'.unregister p).1 := by
  by_cases hgone : p ∈ gone
  · -- an earlier one has taken it along, and it is asked for all the same
    have hout : p ∉ h'.registered := fun hin => (hpart.mem_registered.mp hin).2 hgone
    have hd : h'.Distinguishes p := fun q hin heq =>
      hq.distinguishes hp q (hpart.mem_registered.mp hin).1 heq
    rw [unregister_eq_self hpart.toWellFormed hd hout (hpart.shut p hgone)]
    refine ⟨gone, { hpart with asked_subset := ?_, least := ?_ }⟩
    · exact Finset.insert_subset hgone hpart.asked_subset
    · exact fun X hX => hpart.least X ((Finset.subset_insert p asked).trans hX)
  · have hreg := hpart.mem_registered.mpr ⟨hp, hgone⟩
    obtain ⟨gone', hnext⟩ := hpart.exists_parted_unregister hreg
    have hsilent : ∀ c ∈ h'.registered, (fun _ => 0 : Peer → Multiset Frame) c = 0 :=
      fun _ _ => rfl
    have hboth := hpart.trans hq.toWellFormed hnext hsilent
    rw [Finset.union_comm, ← Finset.insert_eq] at hboth
    exact ⟨gone ∪ gone', hboth⟩

theorem Parted.unregisterAll {asked gone : Finset Peer}
    (hpart : Parted h asked (fun _ => 0) 0 gone h') {ps : List Peer}
    (hps : ∀ p ∈ ps, p ∈ h.registered) :
    ∃ gone', Parted h (asked ∪ ps.toFinset) (fun _ => 0) 0 gone' (h'.unregisterAll ps) := by
  induction ps generalizing asked gone h' with
  | nil =>
    rw [List.toFinset_nil, Finset.union_empty]
    exact ⟨gone, hpart⟩
  | cons p ps ih =>
    obtain ⟨gone', hfirst⟩ := hpart.unregister hq (hps p List.mem_cons_self)
    obtain ⟨gone'', hrest⟩ := ih hfirst fun q hin => hps q (List.mem_cons_of_mem p hin)
    have hasked : asked ∪ (p :: ps).toFinset = insert p asked ∪ ps.toFinset := by
      rw [List.toFinset_cons, Finset.union_insert, Finset.insert_union]
    rw [hasked]
    exact ⟨gone'', hrest⟩

omit hq in
/-- What has been asked for settles who is gone. -/
theorem Parted.gone_unique {asked gone gone' : Finset Peer} {said : Peer → Multiset Frame}
    {n n' : Nat} (h₁ : Parted h asked said n gone h') (h₂ : Parted h asked said n' gone' h'') :
    gone = gone' :=
  Finset.Subset.antisymm (h₁.least gone' h₂.asked_subset h₂.bears)
    (h₂.least gone h₁.asked_subset h₁.bears)

end Order

/-- In whatever order connections are taken off, the same ones stay, in the same rooms; as much has
been delivered, and those who stay have been told the same things, if not in the same order. -/
theorem unregister_order_irrelevant {h : Hub} (hq : h.Quiescent) {ps qs : List Peer}
    (hps : ∀ p ∈ ps, p ∈ h.registered) (hperm : ps.Perm qs) :
    let a := h.unregisterAll ps
    let b := h.unregisterAll qs
    a.registered = b.registered ∧ a.rooms = b.rooms ∧
      a.stats.totalEvents = b.stats.totalEvents ∧
      (∀ p ∈ ps, p ∉ a.registered) ∧
      ∀ c ∈ a.registered, ∃ fs gs : List Frame, fs.Perm gs ∧
        a.connection c = (h.connection c).taking fs ∧
        b.connection c = (h.connection c).taking gs := by
  intro a b
  have hqs : ∀ p ∈ qs, p ∈ h.registered := fun p hp => hps p (hperm.mem_iff.mpr hp)
  obtain ⟨gone, ha⟩ := hq.parted_self.unregisterAll hq hps
  obtain ⟨gone', hb⟩ := hq.parted_self.unregisterAll hq hqs
  rw [List.toFinset_eq_of_perm ps qs hperm] at ha
  obtain rfl := ha.gone_unique hb
  have hregistered : a.registered = b.registered := ha.registered_eq.trans hb.registered_eq.symm
  have hrooms : a.rooms = b.rooms := ha.rooms_eq.trans hb.rooms_eq.symm
  refine ⟨hregistered, hrooms, ?_, ?_, ?_⟩
  · have htally : a.tally = b.tally := ha.tally_eq.trans hb.tally_eq.symm
    rw [tally, tally, hrooms] at htally
    exact Nat.add_right_cancel htally
  · intro p hp hin
    have hgone : p ∈ gone := by
      apply ha.asked_subset
      rw [Finset.empty_union, List.mem_toFinset]
      exact hperm.mem_iff.mp hp
    exact (ha.mem_registered.mp hin).2 hgone
  · intro c hc
    obtain ⟨hreg, hstays⟩ := ha.mem_registered.mp hc
    obtain ⟨fs, hfs, hsum⟩ := ha.taken c hreg hstays
    obtain ⟨gs, hgs, hsum'⟩ := hb.taken c hreg hstays
    exact ⟨fs, gs, Multiset.coe_eq_coe.mp (hsum.trans hsum'.symm), hfs, hgs⟩

/-- Ann can take nothing more.  If Bob goes first, the news of him evicts her before her turn, and
Eve hears of both in either case. -/
theorem ann_and_bob_go :
    let h := run (new ⟨5, 8⟩) [.connect "ann", .connect "bob", .connect "eve", .join 0 "hall",
      .join 1 "hall", .broadcast .pong, .take 1]
    let ann : Peer := ⟨0, .fresh 0, "ann"⟩
    let bob : Peer := ⟨1, .fresh 1, "bob"⟩
    (h.unregisterAll [ann, bob]).registered = (h.unregisterAll [bob, ann]).registered ∧
      (h.unregisterAll [ann, bob]).stats.evictedConnections = 0 ∧
      (h.unregisterAll [bob, ann]).stats.evictedConnections = 1 := by
  intro h ann bob
  have hops : ∀ op ∈ [Operation.connect "ann", .connect "bob", .connect "eve", .join 0 "hall",
      .join 1 "hall", .broadcast .pong, .take 1], op.throughHub = true := by decide
  have hq : h.Quiescent := ((consistent_new ⟨5, 8⟩).run hops).toQuiescent
  have hps : ∀ p ∈ [ann, bob], p ∈ h.registered := by decide +kernel
  obtain ⟨hregistered, _⟩ := unregister_order_irrelevant hq hps (List.Perm.swap bob ann [])
  exact ⟨hregistered, by decide +kernel, by decide +kernel⟩

end Hub

end ChatHub
