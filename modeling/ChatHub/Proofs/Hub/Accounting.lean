import ChatHub.Proofs.Hub.Eviction
import ChatHub.Proofs.Hub.Occupancy
import ChatHub.Proofs.Hub.Replay
/-!
What an operation costs.  A place in a room is worth the two announcements that are made when it is
given up, so that deliveries and places together grow by one with every delivery, however many
connections that removes; in the same way evicted and registered connections balance.
-/

namespace ChatHub

namespace Rooms

section Count

variable {rs : Rooms} (hrs : rs.Valid)

include hrs

theorem Valid.length_roomsOf (p : Peer) :
    (rs.roomsOf p).length = {s ∈ rs.occupancy | s.2 = p}.card := by
  rw [hrs.roomsOf_eq_sort, Finset.length_sort, Occupancy.channelsOf]
  apply Finset.card_image_of_injOn
  intro s hs t ht heq
  rw [Finset.mem_coe, Finset.mem_filter] at hs ht
  exact Prod.ext heq (hs.2.trans ht.2.symm)

theorem Valid.length_flatMap_roomsOf {gone : List Peer} (hgone : gone.Nodup) :
    (gone.flatMap rs.roomsOf).length = {s ∈ rs.occupancy | s.2 ∈ gone}.card := by
  induction gone with
  | nil => simp
  | cons d gone ih =>
    obtain ⟨hout, hrest⟩ := List.nodup_cons.mp hgone
    have hdisjoint : Disjoint {s ∈ rs.occupancy | s.2 = d} {s ∈ rs.occupancy | s.2 ∈ gone} := by
      apply Finset.disjoint_filter.mpr
      rintro s _ rfl
      exact hout
    rw [List.flatMap_cons, List.length_append, hrs.length_roomsOf, ih hrest,
      ← Finset.card_union_of_disjoint hdisjoint, ← Finset.filter_or]
    simp only [List.mem_cons]

end Count

end Rooms

theorem Connection.Grows.offerAll {new : Frame → Prop} {fs : List Frame} (hfs : ∀ f ∈ fs, new f)
    (c : Connection) : c.Grows new (c.offerAll fs) := by
  induction fs generalizing c with
  | nil => exact refl new c
  | cons f fs ih =>
    have hfirst : c.Grows new (c.offer f) := .offer (hfs f List.mem_cons_self) c
    exact hfirst.trans (ih (fun g hg => hfs g (List.mem_cons_of_mem f hg)) _)

namespace Hub

/-- Deliveries, with two for each place that is still taken. -/
def tally (h : Hub) : Nat := h.counters.events + 2 * h.rooms.occupancy.card

/-- Evicted connections, and those that are still registered. -/
def census (h : Hub) : Nat := h.counters.evicted + h.registered.length

/-- The frame tells of a place that has been given up since. -/
def TellsLoss (h h' : Hub) (f : Frame) : Prop :=
  ∃ s ∈ h.rooms.occupancy \ h'.rooms.occupancy, f = leftFrame s.1 s.2.user

theorem TellsLoss.mono {h₀ h h' : Hub} {f : Frame} (hf : h₀.TellsLoss h f)
    (hsub : h'.rooms.occupancy ⊆ h.rooms.occupancy) : h₀.TellsLoss h' f := by
  obtain ⟨s, hs, rfl⟩ := hf
  exact ⟨s, Finset.sdiff_subset_sdiff (Finset.Subset.refl _) hsub hs, rfl⟩

namespace Delivered

variable {h h' : Hub} {f : Frame} {targets gone : List Peer}
  (hd : Delivered h f targets gone h') (hw : h.WellFormed)

include hd hw

theorem occupancy_eq : h'.rooms.occupancy = {s ∈ h.rooms.occupancy | s.2 ∉ gone} := by
  rw [hd.rooms, Rooms.without, hw.rooms.occupancy_restrict]
  simp only [decide_eq_true_eq]

theorem tally_eq : h'.tally = h.tally + 1 := by
  have hsplit := Finset.card_filter_add_card_filter_not (s := h.rooms.occupancy) (·.2 ∈ gone)
  simp only [tally, hd.counters, hd.occupancy_eq hw,
    hw.rooms.length_flatMap_roomsOf hd.gone_nodup]
  omega

theorem census_eq : h'.census = h.census := by
  have hin : (h.registered.filter fun q => q ∈ gone).Perm gone := by
    refine (List.perm_ext_iff_of_nodup (hw.registered_nodup.filter _) hd.gone_nodup).mpr ?_
    intro q
    rw [List.mem_filter, decide_eq_true_eq]
    exact and_iff_right_of_imp (hd.gone_registered q)
  have hsplit := List.length_eq_length_filter_add (l := h.registered) (decide <| · ∈ gone)
  rw [hin.length_eq] at hsplit
  simp only [census, hd.counters, hd.registered]
  simp only [← decide_not] at hsplit
  omega

/-- Everybody hears the frame, or of the places of those who go, or nothing. -/
theorem told {x : Peer} (hx : h.Knows x) : ∃ fs,
    (h'.connection x).queue.waiting = (h.connection x).queue.waiting ++ fs ∧
      ∀ g ∈ fs, g = f ∨ h.TellsLoss h' g := by
  have hnew : ∀ g ∈ h.owedInTurn f targets gone x, g = f ∨ h.TellsLoss h' g := by
    intro g hg
    rcases List.mem_append.mp hg with hown | hnews
    · left
      split at hown
      · exact List.mem_singleton.mp hown
      · exact absurd hown List.not_mem_nil
    · right
      obtain ⟨d, hgone, hmem⟩ := List.mem_flatMap.mp hnews
      split at hmem
      · exact absurd hmem List.not_mem_nil
      · obtain ⟨channel, hroom, rfl⟩ := mem_farewells.mp hmem
        refine ⟨(channel, d), Finset.mem_sdiff.mpr ⟨?_, ?_⟩, rfl⟩
        · exact hw.rooms.mem_occupancy.mpr (hw.mem_roomsOf.mp hroom)
        · rw [hd.occupancy_eq hw, Finset.mem_filter]
          exact fun hin => hin.2 hgone
  have hoffered := Connection.Grows.offerAll hnew (h.connection x)
  by_cases hreg : x ∈ h.registered
  · by_cases hgone : x ∈ gone
    · rw [hd.removed x hgone]
      exact (((hoffered.trans (.beginClose _ _)).trans (.closeQueue _ _)).trans
        (.markClosed _ _)).waiting
    · rw [hd.survivor x hreg hgone]
      exact hoffered.waiting
  · have hout : x.handle ∉ h.registered.map Peer.handle :=
      fun hin => hreg ((hx.mem_handles_iff hw.known).mp hin)
    rw [hd.bystander x hout]
    exact ⟨[], (List.append_nil _).symm, by simp⟩

end Delivered

section Subset

variable {h : Hub} (hq : h.Quiescent)

include hq

/-- No delivery puts anybody into a room. -/
theorem Quiescent.occupancy_deliver_subset (f : Frame) {targets : List Peer}
    (htargets : h.Receivers targets) :
    (deliver f targets h).1.rooms.occupancy ⊆ h.rooms.occupancy := by
  obtain ⟨gone, hd⟩ := exists_delivered hq f htargets
  rw [hd.occupancy_eq hq.toWellFormed]
  exact Finset.filter_subset _ _

theorem Quiescent.occupancy_announceLeft_subset (user : UserId) (channel : ChannelId) :
    (announceLeft deliver user channel h).rooms.occupancy ⊆ h.rooms.occupancy := by
  obtain ⟨gone, hd⟩ :=
    exists_delivered hq (leftFrame channel user) (hq.receivers_members channel)
  have hroom := hd.quiescent hq
  exact (hroom.occupancy_deliver_subset _ hroom.receivers_registered).trans
    (hq.occupancy_deliver_subset _ (hq.receivers_members channel))

end Subset

/-- The hub on its way from `h₀`, where it has let in whoever joins and struck whoever is taken off,
to the end of an operation.  The operation has made `n` deliveries more than the places that have
been given up call for, or less while announcements are due, and all frames but those that `own`
describes tell of such places. -/
structure Account (own : Frame → Prop) (h₀ : Hub) (leaving : Option Peer) (n : Int) (h : Hub) :
    Prop extends h.ConsistentBut leaving where
  same_peers : ∀ i, h.peer? i = h₀.peer? i
  registered_subset : h.registered ⊆ h₀.registered
  occupancy_subset : h.rooms.occupancy ⊆ h₀.rooms.occupancy
  tally_eq : (h.tally : Int) = h₀.tally + n
  census_eq : h.census = h₀.census
  told : ∀ x, h.Knows x → ∃ fs,
    (h.connection x).queue.waiting = (h₀.connection x).queue.waiting ++ fs ∧
      ∀ f ∈ fs, own f ∨ h₀.TellsLoss h f

namespace Account

variable {own : Frame → Prop} {h₀ h : Hub} {leaving : Option Peer} {n : Int}

theorem start (hc : h.Consistent) (own : Frame → Prop) : Account own h none 0 h where
  toConsistentBut := hc
  same_peers := fun _ => rfl
  registered_subset := List.Subset.refl _
  occupancy_subset := Finset.Subset.refl _
  tally_eq := (Int.add_zero _).symm
  census_eq := rfl
  told := fun _ _ => ⟨[], (List.append_nil _).symm, by simp⟩

variable (ha : Account own h₀ leaving n h)

include ha

theorem deliver {f : Frame} {ts : List Peer} (hts : h.Receivers ts)
    (hf : own f ∨ h₀.TellsLoss h f) :
    Account own h₀ leaving (n + 1) (deliver f ts h).1 := by
  obtain ⟨gone, hd⟩ := exists_delivered ha.toQuiescent f hts
  have hw := ha.toWellFormed
  have hsub := ha.occupancy_deliver_subset f hts
  constructor
  case toConsistentBut => exact ha.delivered hd
  case same_peers => exact fun i => (hd.peer? i).trans (ha.same_peers i)
  case registered_subset =>
    exact fun p hp => ha.registered_subset (hd.mem_registered.mp hp).1
  case occupancy_subset => exact hsub.trans ha.occupancy_subset
  case tally_eq =>
    have htally := ha.tally_eq
    rw [hd.tally_eq hw]
    omega
  case census_eq => exact (hd.census_eq hw).trans ha.census_eq
  case told =>
    intro x hx
    have hknows : h.Knows x := (hd.peer? x.handle).symm.trans hx
    obtain ⟨fs, hfs, hold⟩ := ha.told x hknows
    obtain ⟨gs, hgs, hnew⟩ := hd.told hw hknows
    refine ⟨fs ++ gs, by rw [hgs, hfs, List.append_assoc], fun g hg => ?_⟩
    rcases List.mem_append.mp hg with hin | hin
    · exact (hold g hin).imp_right fun hloss => hloss.mono hsub
    · rcases hnew g hin with rfl | ⟨s, hs, rfl⟩
      · exact hf.imp_right fun hloss => hloss.mono hsub
      · exact Or.inr ⟨s, Finset.sdiff_subset_sdiff ha.occupancy_subset (Finset.Subset.refl _) hs,
          rfl⟩

section Own

variable {e : Event} (he : own (.event e))

include he

theorem broadcast : Account own h₀ leaving (n + 1) (h.broadcast e).1 :=
  ha.deliver ha.receivers_registered (Or.inl he)

theorem broadcastToChannel (channel : ChannelId) :
    Account own h₀ leaving (n + 1) (h.broadcastToChannel channel e).1 :=
  ha.deliver (ha.receivers_registered.filter _) (Or.inl he)

theorem sendToUser (user : UserId) : Account own h₀ leaving (n + 1) (h.sendToUser user e).1 :=
  ha.deliver (ha.receivers_registered.filter _) (Or.inl he)

theorem broadcastToRoom (channel : ChannelId) (exclude : Option ConnectionId) :
    Account own h₀ leaving (n + 1) (h.broadcastToRoom channel e exclude).1 :=
  ha.deliver ((ha.receivers_members channel).filter _) (Or.inl he)

end Own

/-- Whatever else is counted. -/
theorem count (f : Counters → Counters) (hevents : ∀ n, (f n).events = n.events)
    (hevicted : ∀ n, (f n).evicted = n.evicted) : Account own h₀ leaving n (h.count f) where
  toConsistentBut := ha.toConsistentBut.count f
  same_peers := ha.same_peers
  registered_subset := ha.registered_subset
  occupancy_subset := ha.occupancy_subset
  tally_eq := by
    rw [← ha.tally_eq]
    simp only [tally, Hub.count, hevents]
  census_eq := by
    rw [← ha.census_eq]
    simp only [census, Hub.count, hevicted]
  told := ha.told

/-- A delivery that reaches nobody is counted all the same. -/
theorem countDelivery : Account own h₀ leaving (n + 1)
    (h.count fun c => { c with events := c.events + 1 }) where
  toConsistentBut := ha.toConsistentBut.count _
  same_peers := ha.same_peers
  registered_subset := ha.registered_subset
  occupancy_subset := ha.occupancy_subset
  tally_eq := by
    have htally := ha.tally_eq
    simp only [tally, Hub.count] at htally ⊢
    omega
  census_eq := ha.census_eq
  told := ha.told

/-- A change of one connection that neither puts a frame into its queue nor takes one out. -/
theorem update {leaving' : Option Peer} {p : Peer} {f : Connection → Connection}
    (hc : (h.update p f).ConsistentBut leaving') (hpeer : ∀ c, (f c).peer = c.peer)
    (hwaiting : ∀ c, (f c).queue.waiting = c.queue.waiting) :
    Account own h₀ leaving' n (h.update p f) where
  toConsistentBut := hc
  same_peers := fun i => (peer?_update p f h hpeer i).trans (ha.same_peers i)
  registered_subset := ha.registered_subset
  occupancy_subset := ha.occupancy_subset
  tally_eq := ha.tally_eq
  census_eq := ha.census_eq
  told := by
    intro x hx
    obtain ⟨fs, hfs, hall⟩ := ha.told x ((peer?_update p f h hpeer x.handle).symm.trans hx)
    exact ⟨fs, (waiting_update p x f h hwaiting).trans hfs, hall⟩

/-- The two announcements that are due for a place. -/
theorem announceLeft {channel : ChannelId} {p : Peer}
    (hlost : (channel, p) ∈ h₀.rooms.occupancy \ h.rooms.occupancy) :
    Account own h₀ leaving (n + 2) (announceLeft Hub.deliver p.user channel h) := by
  have hloss : h₀.TellsLoss h (leftFrame channel p.user) := ⟨(channel, p), hlost, rfl⟩
  have hroom := ha.deliver (ha.receivers_members channel) (Or.inr hloss)
  have hstill := hloss.mono
    (ha.occupancy_deliver_subset (leftFrame channel p.user) (ha.receivers_members channel))
  have hall := hroom.deliver hroom.receivers_registered (Or.inr hstill)
  rw [Int.add_assoc] at hall
  exact hall

end Account

section Leave

variable {own : Frame → Prop} {h : Hub} (hc : h.Consistent) {p : Peer} (hp : h.Knows p)

include hc hp

/-- Somebody gives up a place, and two announcements are due. -/
theorem Consistent.account_exit {channel : ChannelId} (hin : p ∈ h.rooms.members channel) :
    Account own h none (-2) { h with rooms := (h.rooms.leave channel p.id).1 } ∧
      (channel, p) ∈ h.rooms.occupancy \ (h.rooms.leave channel p.id).1.occupancy := by
  have hplace : (channel, p) ∈ h.rooms.occupancy := hc.rooms.mem_occupancy.mpr hin
  have hoccupancy := hc.rooms.occupancy_leave
    (hc.rooms_distinguishes (hc.distinguishes hp)) channel
  have hcard := Finset.card_erase_add_one hplace
  constructor
  · constructor
    case toConsistentBut => exact hc.exit channel p.id
    case same_peers => exact fun _ => rfl
    case registered_subset => exact List.Subset.refl _
    case occupancy_subset => exact hoccupancy ▸ Finset.erase_subset _ _
    case tally_eq =>
      simp only [tally, hoccupancy]
      omega
    case census_eq => rfl
    case told => exact fun _ _ => ⟨[], (List.append_nil _).symm, by simp⟩
  · rw [hoccupancy]
    exact Finset.mem_sdiff.mpr ⟨hplace, Finset.notMem_erase _ _⟩

theorem Consistent.account_leaveRoom (channel : ChannelId) :
    Account own h none 0 (h.leaveRoom p channel).1 := by
  simp only [Hub.leaveRoom]
  split
  next hin =>
    have hd := hc.rooms_distinguishes (hc.distinguishes hp)
    obtain ⟨hexit, hlost⟩ := hc.account_exit hp ((Rooms.contains_iff hd channel).mp hin)
    exact hexit.announceLeft hlost
  next => exact Account.start hc own

/-- Two announcements are due for each place of one who is taken off the hub. -/
theorem Consistent.account_detach :
    Account own { h with registered := erasePeer p.id h.registered } (some p)
      (-2 * ((h.rooms.roomsOf p).length : Int)) (h.detach p) := by
  have hd := hc.rooms_distinguishes (hc.distinguishes hp)
  have hoccupancy : (h.detach p).rooms.occupancy = {s ∈ h.rooms.occupancy | s.2 ≠ p} :=
    hc.rooms.occupancy_leaveAll hd
  have hsplit : {s ∈ h.rooms.occupancy | s.2 = p}.card + {s ∈ h.rooms.occupancy | s.2 ≠ p}.card =
      h.rooms.occupancy.card :=
    Finset.card_filter_add_card_filter_not fun s : ChannelId × Peer => s.2 = p
  rw [← hc.rooms.length_roomsOf p] at hsplit
  constructor
  case toConsistentBut => exact hc.detach hp rfl
  case same_peers => exact detach_peer?
  case registered_subset => exact List.Subset.refl _
  case occupancy_subset => exact hoccupancy ▸ Finset.filter_subset _ _
  case tally_eq =>
    simp only [tally, hoccupancy]
    change ((h.counters.events + 2 * _ : Nat) : Int) = _
    omega
  case census_eq => rfl
  case told =>
    intro x _
    refine ⟨[], ?_, by simp⟩
    rw [List.append_nil]
    refine waiting_update p x (fun c => c.beginClose.closeQueue) h fun c => ?_
    change c.beginClose.queue.waiting = c.queue.waiting
    rw [Connection.queue_beginClose]

theorem Consistent.account_unregister :
    Account own { h with registered := erasePeer p.id h.registered } none 0
      (h.unregister p).1 := by
  have hd := hc.distinguishes hp
  let h₀ : Hub := { h with registered := erasePeer p.id h.registered }
  -- each announcement settles two of those that are due, and nothing is left to settle at the end
  have hannounced (channels : List ChannelId) : ∀ g : Hub,
      Account own h₀ (some p) (-2 * (channels.length : Int)) g →
      (∀ c ∈ channels, (c, p) ∈ h₀.rooms.occupancy \ g.rooms.occupancy) →
      Account own h₀ (some p) 0
        (channels.foldl (fun g c => announceLeft deliver p.user c g) g) := by
    induction channels with
    | nil => exact fun g hg _ => hg
    | cons c channels ih =>
      intro g hg hlost
      have hfirst := hg.announceLeft (hlost c List.mem_cons_self)
      have hdue : -2 * ((c :: channels).length : Int) + 2 = -2 * (channels.length : Int) := by
        rw [List.length_cons]
        omega
      rw [hdue] at hfirst
      apply ih _ hfirst
      intro c' hc'
      have hsub := hg.occupancy_announceLeft_subset p.user c
      exact Finset.sdiff_subset_sdiff (Finset.Subset.refl _) hsub
        (hlost c' (List.mem_cons_of_mem c hc'))
  have hplaces : ∀ c ∈ h.rooms.roomsOf p,
      (c, p) ∈ h₀.rooms.occupancy \ (h.detach p).rooms.occupancy := by
    intro c hroom
    refine Finset.mem_sdiff.mpr ⟨hc.rooms.mem_occupancy.mpr (hc.mem_roomsOf.mp hroom), ?_⟩
    rw [(hc.toWellFormed.detach hd).rooms.mem_occupancy, mem_detach_members hc.toWellFormed hd]
    exact fun hin => hin.2 rfl
  have hleft := hannounced _ _ (hc.account_detach hp) hplaces
  have hunregister := hc.unregister hp
  rw [unregister_eq hc.toWellFormed hd] at hunregister ⊢
  exact hleft.update hunregister (fun _ => rfl) fun _ => rfl

end Leave

/-- What an operation has come to.  Beside `n` deliveries of its own it has made two for each place
that has been given up, the places in `entered` that it let somebody into included; all who are off
the set since, except the one it struck itself, have been evicted; and all that has been said is its
own, or tells of such places. -/
structure Settled (own : Frame → Prop) (n : Nat) (entered : Occupancy) (struck : Option Peer)
    (h h' : Hub) : Prop where
  occupancy : h'.rooms.occupancy ⊆ h.rooms.occupancy ∪ entered
  events : h'.counters.events = h.counters.events + n +
    2 * ((h.rooms.occupancy ∪ entered) \ h'.rooms.occupancy).card
  evicted : h'.counters.evicted = h.counters.evicted +
    {p ∈ h.evictedBy h' | struck ≠ some p}.card
  told : ∀ x f, h.Knows x → f ∈ gained h h' x → own f ∨
    ∃ s ∈ (h.rooms.occupancy ∪ entered) \ h'.rooms.occupancy, f = leftFrame s.1 s.2.user

theorem card_evictedBy {h h' : Hub} (hh : h.registered.Nodup) (hh' : h'.registered.Nodup)
    (hsub : h'.registered ⊆ h.registered) :
    (h.evictedBy h').card + h'.registered.length = h.registered.length := by
  have hsub' : h'.registered.toFinset ⊆ h.registered.toFinset :=
    fun p hp => List.mem_toFinset.mpr (hsub (List.mem_toFinset.mp hp))
  have hcard := Finset.card_sdiff_add_card_eq_card hsub'
  rwa [List.toFinset_card_of_nodup hh, List.toFinset_card_of_nodup hh'] at hcard

namespace Settled

variable {own : Frame → Prop} {n : Nat} {entered : Occupancy} {struck : Option Peer} {h h' : Hub}

/-- The books are closed: `h₀` differs from `h` in who has been let in and who has been struck. -/
theorem of_account {h₀ : Hub} (ha : Account own h₀ none n h') (hnodup : h₀.registered.Nodup)
    (hcounters : h₀.counters = h.counters) (htable : h₀.table = h.table)
    (hoccupancy : h₀.rooms.occupancy = h.rooms.occupancy ∪ entered)
    (hstruck : {p ∈ h.evictedBy h' | struck ≠ some p} = h₀.evictedBy h') :
    Settled own n entered struck h h' := by
  have hsub := ha.occupancy_subset
  have htally := ha.tally_eq
  have hcensus := ha.census_eq
  have hcard := Finset.card_sdiff_add_card_eq_card hsub
  have hgone := card_evictedBy hnodup ha.registered_nodup ha.registered_subset
  simp only [tally, census, hcounters] at htally hcensus
  rw [hoccupancy] at hsub htally hcard
  constructor
  case occupancy => exact hsub
  case events => omega
  case evicted =>
    rw [hstruck]
    omega
  case told =>
    intro x f hx hf
    have hknows : h'.Knows x := by
      refine (ha.same_peers x.handle).trans ?_
      rw [peer?, htable]
      exact hx
    obtain ⟨fs, hfs, hall⟩ := ha.told x hknows
    have hwaiting : (h₀.connection x).queue.waiting = (h.connection x).queue.waiting := by
      simp only [connection, htable]
    rw [hwaiting] at hfs
    rw [gained_eq_of_append hfs] at hf
    rw [← hoccupancy]
    exact hall f hf

/-- An operation that neither lets anybody in nor strikes anybody. -/
theorem of_account_self (hc : h.Consistent) (ha : Account own h none n h') :
    Settled own n ∅ none h h' := by
  apply of_account ha hc.registered_nodup rfl rfl (Finset.union_empty _).symm
  apply Finset.filter_true_of_mem
  exact fun _ _ => Option.some_ne_none _ |>.symm

/-- An operation that says nothing and takes nobody off. -/
theorem of_quiet (hcounters : h'.counters.events = h.counters.events ∧
      h'.counters.evicted = h.counters.evicted) (hrooms : h'.rooms = h.rooms)
    (hregistered : h.registered ⊆ h'.registered) (hgained : ∀ x, h.Knows x → gained h h' x = []) :
    Settled own 0 ∅ none h h' := by
  have hnobody : h.evictedBy h' = ∅ := by
    apply Finset.sdiff_eq_empty_iff_subset.mpr
    exact fun p hp => List.mem_toFinset.mpr (hregistered (List.mem_toFinset.mp hp))
  constructor
  case occupancy => rw [hrooms, Finset.union_empty]
  case events => rw [hcounters.1, hrooms, Finset.union_empty, Finset.sdiff_self]; rfl
  case evicted => rw [hcounters.2, hnobody]; rfl
  case told =>
    intro x f hx hf
    rw [hgained x hx] at hf
    exact absurd hf List.not_mem_nil

theorem refl (own : Frame → Prop) (h : Hub) : Settled own 0 ∅ none h h :=
  of_quiet ⟨rfl, rfl⟩ rfl (List.Subset.refl _) fun _ _ => gained_eq_nil_of_le (Nat.le_refl _)

/-- An operation on a connection that may not exist. -/
theorem withPeer (c : Nat) {f : Peer → Hub × Outcome}
    (hnone : h.peer? c = none → Settled own n entered struck h h)
    (hsome : ∀ p, h.peer? c = some p → Settled own n entered struck h (f p).1) :
    Settled own n entered struck h (h.withPeer c f).1 := by
  rw [Hub.withPeer]
  split
  next p hp => exact hsome p hp
  next hp => exact hnone hp

end Settled

/-- The place that one who joins a room gets. -/
def place (h : Hub) (p : Peer) (channel : ChannelId) : Occupancy :=
  if (h.connection p).queue.closed then ∅ else {(channel, p)}

/-- The deliveries of a joining: the list of users and, unless there is no room for it, the news to
the room and to everyone. -/
def joinDeliveries (h : Hub) (p : Peer) : Nat :=
  if (h.connection p).queue.closed then 0
  else if (h.connection p).queue.free = 0 then 1
  else 3

def relayDeliveries (h : Hub) (p : Peer) (s : Signal) : Nat :=
  if s.target == p.user || !h.rooms.areCoMembers s.channel p.user s.target then 0 else 1

/-- The deliveries of a command. -/
def commandDeliveries (h : Hub) (p : Peer) (c : Command) : Nat :=
  if (h.connection p).isOpen then
    match c with
    | .typing _ | .ping => 1
    | .voiceJoin _ => h.joinDeliveries p
    | .signal _ s => h.relayDeliveries p s
    | .mediaState r => if h.rooms.contains r.channel p.id then 1 else 0
    | .subscribe _ | .voiceLeave _ | .unknown _ => 0
  else 0

def commandPlace (h : Hub) (p : Peer) : Command → Occupancy
  | .voiceJoin channel => h.place p channel
  | _ => ∅

/-- The deliveries that an operation makes by itself, whatever may come of them. -/
def deliveries (h : Hub) : Operation → Nat
  | .broadcast _ | .broadcastToChannel .. | .sendToUser .. | .broadcastToRoom _ _ none
  | .publishEdit .. | .publishDeletion .. | .publishReactions .. => 1
  | .publishMessage .. => 2
  | .publishServerEvent e => if e.kind.isServerWide then 1 else 0
  | .broadcastToRoom _ _ (some c) | .sendTo c _ => (h.peer? c).elim 0 fun _ => 1
  | .join c _ => (h.peer? c).elim 0 h.joinDeliveries
  | .relay c _ s => (h.peer? c).elim 0 fun p => h.relayDeliveries p s
  | .handle c command => (h.peer? c).elim 0 fun p => h.commandDeliveries p command
  | .handleText c text =>
      match Command.decode text with
      | .ok command => (h.peer? c).elim 0 fun p => h.commandDeliveries p command
      | .error _ => 0
  | _ => 0

/-- The place that an operation lets somebody into. -/
def entered (h : Hub) : Operation → Occupancy
  | .join c channel => (h.peer? c).elim ∅ fun p => h.place p channel
  | .handle c command => (h.peer? c).elim ∅ fun p => h.commandPlace p command
  | .handleText c text =>
      match Command.decode text with
      | .ok command => (h.peer? c).elim ∅ fun p => h.commandPlace p command
      | .error _ => ∅
  | _ => ∅

/-- The connection that an operation is asked to take off the hub. -/
def struck (h : Hub) : Operation → Option Peer
  | .unregister c => h.peer? c
  | _ => none

/-- The event that an operation hands on as it is. -/
def Operation.event? : Operation → Option Event
  | .broadcast e | .broadcastToChannel _ e | .sendToUser _ e | .broadcastToRoom _ e _
  | .sendTo _ e | .publishServerEvent e => some e
  | _ => none

/-- What an operation says by itself: that somebody has left a room only if it is handed that
event. -/
def Operation.Says (op : Operation) (f : Frame) : Prop :=
  ∃ e, f = .event e ∧ (e.kind = .voiceLeft → op.event? = some e)

section Operations

variable {own : Frame → Prop} (hplain : ∀ e : Event, e.kind ≠ .voiceLeft → own (.event e))
  {h : Hub} (hc : h.Consistent)

include hc

theorem Consistent.account_sendTo {h₀ : Hub} {n : Int} (ha : Account own h₀ none n h) {p : Peer}
    (hp : h.Knows p) {e : Event} (he : own (.event e)) :
    Account own h₀ none (n + 1) (h.sendTo p e).1 := by
  by_cases hreg : p ∈ h.registered
  · exact ha.deliver (receivers_singleton hreg) (Or.inl he)
  · rw [sendTo_of_not_open (hc.gone p hp hreg).2.1]
    exact ha.countDelivery

theorem Consistent.sendTo_snd {p : Peer} (hreg : p ∈ h.registered) (e : Event) :
    (h.sendTo p e).2 = decide ((h.connection p).queue.free ≠ 0) := by
  have hnodup : ([p].map Peer.handle).Nodup := List.nodup_singleton p.handle
  change ((push (.event e) [p] h).delivered == 1) = _
  rw [push_delivered (.event e) h hnodup]
  by_cases hfull : (h.connection p).queue.free = 0
  · simp [hfull]
  · simp [hc.isOpen hreg, hfull, Nat.pos_of_ne_zero]

/-- One who has no room for what it is sent is gone by the time it should have got it. -/
theorem Consistent.not_isOpen_sendTo {p : Peer} (hreg : p ∈ h.registered)
    (hfull : (h.connection p).queue.free = 0) (e : Event) :
    ((h.sendTo p e).1.connection p).isOpen = false := by
  obtain ⟨gone, hd⟩ :=
    exists_delivered hc.toQuiescent (.event e) (receivers_singleton hreg)
  have hgone : p ∈ gone := by
    by_contra hstays
    have hroom := hd.toCascade.length_le_free hc.toQuiescent hd.listed hd.pending hreg hstays
    simp [owedInTurn, hfull] at hroom
  change ((deliver (.event e) [p] h).1.connection p).isOpen = false
  rw [hd.removed p hgone]
  rfl

theorem Consistent.settled_leaveRoom {p : Peer} (hp : h.Knows p) (channel : ChannelId) :
    Settled own 0 ∅ none h (h.leaveRoom p channel).1 :=
  .of_account_self hc (hc.account_leaveRoom hp channel)

theorem Consistent.settled_unregister {p : Peer} (hp : h.Knows p) :
    Settled own 0 ∅ (some p) h (h.unregister p).1 := by
  have hd := hc.distinguishes hp
  have hnodup : (erasePeer p.id h.registered).Nodup := hc.registered_nodup.filter _
  refine Settled.of_account (hc.account_unregister hp) hnodup rfl rfl
    (Finset.union_empty _).symm ?_
  ext q
  have hid : q ∈ h.registered → (q.id ≠ p.id ↔ p ≠ q) := fun hq =>
    not_congr ⟨fun heq => (hd q hq heq).symm, fun heq => congrArg Peer.id heq.symm⟩
  simp only [evictedBy, erasePeer, Finset.mem_filter, Finset.mem_sdiff, List.mem_toFinset,
    List.mem_filter, bne_iff_ne, ne_eq, Option.some.injEq]
  constructor
  · rintro ⟨⟨hq, hout⟩, hne⟩
    exact ⟨⟨hq, (hid hq).mpr hne⟩, hout⟩
  · rintro ⟨⟨hq, hne⟩, hout⟩
    exact ⟨⟨hq, hout⟩, (hid hq).mp hne⟩

include hplain

theorem Consistent.settled_joinRoom {p : Peer} (hp : h.Knows p) (channel : ChannelId) :
    Settled own (h.joinDeliveries p) (h.place p channel) none h (h.joinRoom p channel).1 := by
  cases hclosed : (h.connection p).queue.closed with
  | true =>
    simp only [Hub.joinRoom, Rooms.join, joinDeliveries, place, hclosed, if_true]
    exact .refl own h
  | false =>
    let h₀ : Hub := { h with rooms := ⟨Rooms.insert channel p h.rooms.rooms⟩ }
    have hentered : h₀.Consistent := hc.enter hp hclosed channel
    have hreg : p ∈ h₀.registered := hc.mem_registered_of_queue_open hp hclosed
    obtain ⟨users, hjoin⟩ : ∃ users, h.rooms.join channel p (h.connection p).queue.closed =
        (h₀.rooms, some users) := by
      rw [Rooms.join, hclosed]
      exact ⟨_, rfl⟩
    let e : Event := ⟨.voiceRoomState, .roomState ⟨channel, users⟩⟩
    let sent := h₀.sendTo p e
    have hjoined : (h.joinRoom p channel).1 =
        if !sent.2 && !(sent.1.connection p).isOpen then sent.1
        else ((sent.1.broadcastToRoom channel (.joined channel p.user) (some p.id)).1.broadcast
          (.joined channel p.user)).1 := joinRoom_eq hjoin
    have hsent : Account own h₀ none 1 sent.1 := hentered.account_sendTo
      (Account.start hentered own) hp (hplain e Event.Kind.noConfusion)
    have haccount : Account own h₀ none (h.joinDeliveries p) (h.joinRoom p channel).1 := by
      rw [hjoined, joinDeliveries, hclosed, if_neg Bool.false_ne_true]
      by_cases hfull : (h.connection p).queue.free = 0
      · have hrefused : sent.2 = false :=
          (hentered.sendTo_snd hreg e).trans (decide_eq_false (not_not.mpr hfull))
        have hgone := hentered.not_isOpen_sendTo hreg hfull e
        rw [if_pos hfull, if_pos (by simp [sent, hrefused, hgone])]
        exact hsent
      · have htaken : sent.2 = true := (hentered.sendTo_snd hreg e).trans (decide_eq_true hfull)
        rw [if_neg hfull, if_neg (by simp [htaken])]
        have hnews := hplain (.joined channel p.user) Event.Kind.noConfusion
        exact (hsent.broadcastToRoom hnews channel (some p.id)).broadcast hnews
    have hd := hc.rooms_distinguishes (hc.distinguishes hp)
    refine Settled.of_account haccount hc.registered_nodup rfl rfl ?_ ?_
    · simp only [place, hclosed, Bool.false_eq_true, if_false]
      rw [Finset.union_comm]
      exact hc.rooms.occupancy_enter hd channel
    · apply Finset.filter_true_of_mem
      exact fun _ _ => (Option.some_ne_none _).symm

theorem Consistent.settled_relaySignal (p : Peer) (kind : SignalKind) (s : Signal) :
    Settled own (h.relayDeliveries p s) ∅ none h (h.relaySignal p kind s).1 := by
  rw [Hub.relaySignal, relayDeliveries]
  split
  next =>
    exact .of_account_self hc ((Account.start hc own).count
      (fun n => { n with signalsDropped := n.signalsDropped + 1 }) (fun _ => rfl) fun _ => rfl)
  next =>
    have hsignal : own (.event (signalEvent p kind s)) := by
      apply hplain
      cases kind with
      | offer => exact Event.Kind.noConfusion
      | answer => exact Event.Kind.noConfusion
      | ice => exact Event.Kind.noConfusion
    exact .of_account_self hc (((Account.start hc own).sendToUser hsignal s.target).count
      (fun n => { n with signalsRelayed := n.signalsRelayed + 1 }) (fun _ => rfl) fun _ => rfl)

theorem Consistent.settled_reportMedia (p : Peer) (r : MediaReport) :
    Settled own (if h.rooms.contains r.channel p.id then 1 else 0) ∅ none h
      (h.reportMedia p r) := by
  rw [Hub.reportMedia]
  split
  next =>
    exact .of_account_self hc ((Account.start hc own).broadcastToRoom
      (hplain _ Event.Kind.noConfusion) r.channel (some p.id))
  next => exact .refl own h

theorem Consistent.settled_handle {p : Peer} (hp : h.Knows p) (c : Command) :
    Settled own (h.commandDeliveries p c) (h.commandPlace p c) none h (h.handle p c) := by
  unfold Hub.handle commandDeliveries
  cases hopen : (h.connection p).isOpen with
  | false =>
    have hout : p ∉ h.registered := by
      intro hreg
      rw [hc.isOpen hreg] at hopen
      cases hopen
    have hnowhere : h.commandPlace p c = ∅ := by
      cases c with
      | voiceJoin channel => exact if_pos (hc.gone p hp hout).2.2
      | _ => rfl
    rw [hnowhere]
    exact .refl own h
  | true =>
    simp only [if_true]
    have hstart := Account.start hc own
    cases c with
    | subscribe channel =>
      have hviewed : (h.update p (Connection.view channel)).Consistent :=
        hc.update hp (fun _ => rfl) rfl rfl fun _ hfits => ⟨hfits.capacity_eq, hfits.length_le⟩
      exact .of_account_self hc (hstart.update hviewed (fun _ => rfl) fun _ => rfl)
    | typing channel =>
      exact .of_account_self hc
        (hstart.broadcastToChannel (hplain _ Event.Kind.noConfusion) channel)
    | voiceJoin channel => exact hc.settled_joinRoom hplain hp channel
    | voiceLeave channel => exact hc.settled_leaveRoom hp channel
    | signal kind s => exact hc.settled_relaySignal hplain p kind s
    | mediaState report => exact hc.settled_reportMedia hplain p report
    | ping =>
      exact .of_account_self hc (hc.account_sendTo hstart hp (hplain .pong Event.Kind.noConfusion))
    | unknown tag => exact .refl own h

end Operations

/-- A new connection is in no room and has been told nothing. -/
theorem Consistent.settled_connect {own : Frame → Prop} {h : Hub} (hc : h.Consistent)
    (user : UserId) : Settled own 0 ∅ none h (h.perform (.connect user)).1 := by
  simp only [Hub.perform]
  split
  next h' p hok =>
    have hn := connected_of_connect hok
    apply Settled.of_quiet ?_ hn.rooms
    · exact fun q hq => (hc.mem_registered_connect hn).mpr (Or.inr hq)
    · intro x hx
      apply gained_eq_nil_of_le
      rw [hn.connection_eq hx]
    · rw [hn.counters]
      exact ⟨rfl, rfl⟩
  next => exact .refl own h

theorem Consistent.settled_read {own : Frame → Prop} {h : Hub} (hc : h.Consistent)
    {op : Operation} (hreading : op.isReading = true) :
    Settled own 0 ∅ none h (h.perform op).1 := by
  have hraw : op.isRaw = false := by
    cases op <;> first | rfl | cases hreading
  have hgained := (hc.keyed.steps_perform hraw).reads hreading
  obtain ⟨table, htable⟩ := perform_of_isReading (h := h) hreading
  rw [htable] at hgained ⊢
  exact .of_quiet ⟨rfl, rfl⟩ rfl (List.Subset.refl _) fun x _ => hgained x

theorem Consistent.settled_perform {h : Hub} (hc : h.Consistent) {op : Operation}
    (hop : op.throughHub = true) : Settled op.Says (h.deliveries op) (h.entered op) (h.struck op)
      h (h.perform op).1 := by
  have hplain (e : Event) (he : e.kind ≠ .voiceLeft) : op.Says (.event e) :=
    ⟨e, rfl, fun hleft => absurd hleft he⟩
  have hknows {c : Nat} {p : Peer} (hp : h.peer? c = some p) : h.Knows p :=
    hc.keyed.knows_of_peer? hp
  have hstart := Account.start hc op.Says
  cases op with
  | connect user => exact hc.settled_connect user
  | unregister c =>
    refine .withPeer c (fun hp => ?_) fun p hp => ?_
    · simp only [struck, hp]
      exact .refl _ h
    · simp only [struck, hp]
      exact hc.settled_unregister (hknows hp)
  | take | abandon => exact hc.settled_read rfl
  | handle c command =>
    refine .withPeer c (fun hp => ?_) fun p hp => ?_
    · simp only [deliveries, entered, hp]
      exact .refl _ h
    · simp only [deliveries, entered, hp]
      exact hc.settled_handle hplain (hknows hp) command
  | handleText c text =>
    simp only [deliveries, entered]
    refine .withPeer c (fun hp => ?_) fun p hp => ?_
    · simp only [hp]
      split
      · exact .refl _ h
      · exact .refl _ h
    · cases hdecode : Command.decode text with
      | error e =>
        simp only [Hub.handleText, hdecode]
        exact .refl _ h
      | ok command =>
        simp only [Hub.handleText, hdecode, hp]
        exact hc.settled_handle hplain (hknows hp) command
  | join c channel =>
    refine .withPeer c (fun hp => ?_) fun p hp => ?_
    · simp only [deliveries, entered, hp]
      exact .refl _ h
    · simp only [deliveries, entered, hp]
      exact hc.settled_joinRoom hplain (hknows hp) channel
  | leave c channel =>
    exact .withPeer c (fun _ => .refl _ h) fun p hp => hc.settled_leaveRoom (hknows hp) channel
  | relay c kind s =>
    refine .withPeer c (fun hp => ?_) fun p hp => ?_
    · simp only [deliveries, hp]
      exact .refl _ h
    · simp only [deliveries, hp]
      exact hc.settled_relaySignal hplain p kind s
  | broadcast e => exact .of_account_self hc (hstart.broadcast ⟨e, rfl, fun _ => rfl⟩)
  | broadcastToChannel channel e =>
    exact .of_account_self hc (hstart.broadcastToChannel ⟨e, rfl, fun _ => rfl⟩ channel)
  | sendToUser user e =>
    exact .of_account_self hc (hstart.sendToUser ⟨e, rfl, fun _ => rfl⟩ user)
  | broadcastToRoom channel e exclude =>
    have hown : (Operation.broadcastToRoom channel e exclude).Says (.event e) :=
      ⟨e, rfl, fun _ => rfl⟩
    cases exclude with
    | none => exact .of_account_self hc (hstart.broadcastToRoom hown channel none)
    | some c =>
      refine .withPeer c (fun hp => ?_) fun p hp => ?_
      · simp only [deliveries, hp]
        exact .refl _ h
      · simp only [deliveries, hp]
        exact .of_account_self hc (hstart.broadcastToRoom hown channel (some p.id))
  | sendTo c e =>
    refine .withPeer c (fun hp => ?_) fun p hp => ?_
    · simp only [deliveries, hp]
      exact .refl _ h
    · simp only [deliveries, hp]
      exact .of_account_self hc
        (hc.account_sendTo hstart (hknows hp) ⟨e, rfl, fun _ => rfl⟩)
  | publishMessage message digest =>
    exact .of_account_self hc ((hstart.broadcastToChannel
      (hplain ⟨.messageNew, .raw message⟩ Event.Kind.noConfusion) digest.channel).broadcast
        (hplain ⟨.messageActivity, .activity digest⟩ Event.Kind.noConfusion))
  | publishEdit channel message =>
    exact .of_account_self hc (hstart.broadcastToChannel (hplain _ Event.Kind.noConfusion) channel)
  | publishDeletion channel message =>
    exact .of_account_self hc (hstart.broadcastToChannel (hplain _ Event.Kind.noConfusion) channel)
  | publishReactions channel reactions =>
    exact .of_account_self hc (hstart.broadcastToChannel (hplain _ Event.Kind.noConfusion) channel)
  | publishServerEvent e =>
    cases hkind : e.kind.isServerWide with
    | false =>
      simp only [Hub.perform, Hub.publishServerEvent, deliveries, hkind, Bool.false_eq_true,
        if_false]
      exact .refl _ h
    | true =>
      simp only [Hub.perform, Hub.publishServerEvent, deliveries, hkind, if_true]
      exact .of_account_self hc (hstart.broadcast ⟨e, rfl, fun _ => rfl⟩)
  | create | register | activate | beginClose | closeQueue | markClosed | send | view
  | enterRoom | exitRoom | exitRooms => cases hop

/-- Whatever has been asked of a hub, the next operation makes its own deliveries and two more for
each place that it takes somebody out of, one that it has just let somebody into included; and it
evicts all who leave the set by it, except the one it is asked to take off. -/
theorem deliveries_balance (limits : Limits) {ops : List Operation} {op : Operation}
    (hops : ∀ o ∈ ops ++ [op], o.throughHub = true) :
    let h := run (new limits) ops
    let h' := run (new limits) (ops ++ [op])
    h'.stats.totalEvents = h.stats.totalEvents + h.deliveries op +
        2 * ((h.rooms.occupancy ∪ h.entered op) \ h'.rooms.occupancy).card ∧
      h'.stats.evictedConnections = h.stats.evictedConnections +
        {p ∈ h.evictedBy h' | h.struck op ≠ some p}.card := by
  intro h h'
  have hc : h.Consistent :=
    (consistent_new limits).run fun o ho => hops o (List.mem_append_left _ ho)
  have hsettled := hc.settled_perform (hops op (List.mem_append_right ops List.mem_cons_self))
  have hlast : h' = (h.perform op).1 := run_concat (new limits) ops op
  rw [← hlast] at hsettled
  exact ⟨hsettled.events, hsettled.evicted⟩

/-- The news of Bob is one frame too many for Ann, and the news of her going too many for him. -/
theorem bob_joins_in_vain :
    let h := run (new ⟨3, 8⟩) [.connect "ann", .connect "bob", .join 0 "hall"]
    let h' := run (new ⟨3, 8⟩) [.connect "ann", .connect "bob", .join 0 "hall", .join 1 "hall"]
    h'.stats.totalEvents = h.stats.totalEvents + 3 + 2 * 2 ∧
      h'.stats.evictedConnections = h.stats.evictedConnections + 2 := by
  intro h h'
  have hops : ∀ o ∈ [Operation.connect "ann", .connect "bob", .join 0 "hall"] ++
      [.join 1 "hall"], o.throughHub = true := by decide
  obtain ⟨hevents, hevicted⟩ := deliveries_balance ⟨3, 8⟩ hops
  have hown : h.deliveries (.join 1 "hall") = 3 := by decide +kernel
  have hlost : ((h.rooms.occupancy ∪ h.entered (.join 1 "hall")) \
      h'.rooms.occupancy).card = 2 := by decide +kernel
  have hgone : {p ∈ h.evictedBy h' | h.struck (.join 1 "hall") ≠ some p}.card = 2 := by
    decide +kernel
  refine ⟨hevents.trans ?_, hevicted.trans ?_⟩
  · rw [← hown, ← hlost]
    rfl
  · rw [← hgone]
    rfl

end Hub

end ChatHub
