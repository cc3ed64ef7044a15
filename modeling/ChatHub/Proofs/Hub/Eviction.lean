import ChatHub.Proofs.Hub.Cascade
import Mathlib.Algebra.BigOperators.Group.Finset.Basic
import Mathlib.Algebra.Order.BigOperators.Group.Finset
import Mathlib.Algebra.Order.Group.Multiset
/-!
Which connections a delivery costs.  The more of them go, the more there is to say, and the more of
them may go; the ones that do are the least set that leaves nobody with more to take than fits.
-/

namespace ChatHub

/-- The ways to address an event. -/
inductive Address where
  | everyone
  | viewers (channel : ChannelId)
  | user (user : UserId)
  | room (channel : ChannelId) (exclude : Option ConnectionId)
  | one (p : Peer)

namespace Address

/-- The connections that an address means. -/
def audience (h : Hub) : Address → List Peer
  | everyone => h.registered
  | viewers channel => h.registered.filter fun p => (h.connection p).viewed = some channel
  | user u => h.registered.filter fun p => p.user = u
  | room channel exclude => (h.rooms.members channel).filter fun p => exclude ≠ some p.id
  | one p => [p]

/-- A single connection is addressed only while it is registered. -/
def Registered (h : Hub) : Address → Prop
  | one p => p ∈ h.registered
  | _ => True

end Address

namespace Hub

/-- Sends an event to an address. -/
def post (a : Address) (e : Event) (h : Hub) : Hub :=
  match a with
  | .everyone => (h.broadcast e).1
  | .viewers channel => (h.broadcastToChannel channel e).1
  | .user u => (h.sendToUser u e).1
  | .room channel exclude => (h.broadcastToRoom channel e exclude).1
  | .one p => (h.sendTo p e).1

/-- The frames owed to `c` by the event and by the removal of all others in `gone`. -/
def owed (h : Hub) (a : Address) (e : Event) (gone : Finset Peer) (c : Peer) : Multiset Frame :=
  (if c ∈ a.audience h then {.event e} else 0) +
    ∑ d ∈ gone.erase c, (h.farewells d c : Multiset Frame)

/-- Whoever is owed more than fits is among them. -/
def Absorbs (h : Hub) (a : Address) (e : Event) (gone : Finset Peer) : Prop :=
  ∀ c ∈ h.registered, (h.connection c).queue.free < (h.owed a e gone c).card → c ∈ gone

/-- The connections that were registered in `h` and are not in `h'`. -/
def evictedBy (h h' : Hub) : Finset Peer :=
  h.registered.toFinset \ h'.registered.toFinset

variable {h : Hub} {a : Address} {e : Event}

theorem post_eq_deliver (h : Hub) (a : Address) (e : Event) :
    h.post a e = (deliver (.event e) (a.audience h) h).1 := by
  cases a with
  | everyone => rfl
  | viewers channel =>
    simp only [post, broadcastToChannel, broadcastWhere, Address.audience,
      Connection.isViewing, beq_eq_decide]
  | user u => simp only [post, sendToUser, Address.audience, beq_eq_decide]
  | room channel exclude =>
    simp only [post, broadcastToRoom, Address.audience, bne, beq_eq_decide, ne_eq,
      decide_not]
  | one p => rfl

theorem receivers_audience (hw : h.WellFormed) (ha : a.Registered h) :
    h.Receivers (a.audience h) := by
  cases a with
  | everyone => exact hw.receivers_registered
  | viewers channel => exact hw.receivers_registered.filter _
  | user u => exact hw.receivers_registered.filter _
  | room channel exclude => exact (hw.receivers_members channel).filter _
  | one q => exact receivers_singleton ha

/-- A frame for the event, if it is for `c`; then one for each room of each other who goes, and
one more for each of those that `c` is in. -/
theorem card_owed (h : Hub) (a : Address) (e : Event) (gone : Finset Peer) (c : Peer) :
    (h.owed a e gone c).card =
      (if c ∈ a.audience h then 1 else 0) + ∑ d ∈ gone.erase c,
        ((h.rooms.roomsOf d).length +
          (h.rooms.roomsOf d).countP fun channel => c ∈ h.rooms.members channel) := by
  have hfarewells (d : Peer) : (h.farewells d c).length = (h.rooms.roomsOf d).length +
      (h.rooms.roomsOf d).countP fun channel => c ∈ h.rooms.members channel := by
    rw [farewells]
    induction h.rooms.roomsOf d with
    | nil => rfl
    | cons channel channels ih =>
      rw [List.flatMap_cons, List.length_append, ih, List.countP_cons, List.length_cons]
      split
      next hin =>
        simp only [hin, decide_true, if_true, List.length_append, List.length_singleton]
        omega
      next hout =>
        simp only [hout, decide_false, Bool.false_eq_true, if_false, List.nil_append,
          List.length_singleton]
        omega
  have hfirst : (if c ∈ a.audience h then {Frame.event e} else 0 : Multiset Frame).card =
      if c ∈ a.audience h then 1 else 0 := by
    split
    · exact Multiset.card_singleton _
    · exact Multiset.card_zero
  rw [owed, Multiset.card_add, Multiset.card_sum, hfirst]
  simp only [Multiset.coe_card, hfarewells]

theorem coe_flatMap {α β : Type} (f : α → List β) (xs : List α) :
    (xs.flatMap f : Multiset β) = (xs.map fun x => (f x : Multiset β)).sum := by
  induction xs with
  | nil => rfl
  | cons x xs ih => rw [List.flatMap_cons, ← Multiset.coe_add, ih, List.map_cons, List.sum_cons]

theorem coe_owedInTurn {gone : List Peer} (hgone : gone.Nodup) (c : Peer) :
    (h.owedInTurn (.event e) (a.audience h) gone c : Multiset Frame) =
      h.owed a e gone.toFinset c := by
  have hothers : ((gone.flatMap fun d => if d = c then [] else h.farewells d c) :
      Multiset Frame) = ∑ d ∈ gone.toFinset.erase c, (h.farewells d c : Multiset Frame) := by
    have hskip : ∀ d ∈ gone.toFinset, d ∉ gone.toFinset.erase c →
        ((if d = c then [] else h.farewells d c : List Frame) : Multiset Frame) = 0 := by
      intro d hd hnot
      have heq : d = c := by
        by_contra hne
        exact hnot (Finset.mem_erase.mpr ⟨hne, hd⟩)
      rw [if_pos heq]
      rfl
    rw [coe_flatMap, ← List.sum_toFinset _ hgone,
      ← Finset.sum_subset (Finset.erase_subset c gone.toFinset) hskip]
    apply Finset.sum_congr rfl
    intro d hd
    rw [if_neg (Finset.ne_of_mem_erase hd)]
  rw [owedInTurn, ← Multiset.coe_add, hothers, owed]
  congr 1
  split
  · rfl
  · rfl

/-- The more go, the more is owed. -/
theorem card_owed_mono {X Y : Finset Peer} (hsub : X ⊆ Y) (c : Peer) :
    (h.owed a e X c).card ≤ (h.owed a e Y c).card := by
  rw [card_owed, card_owed]
  apply Nat.add_le_add_left
  exact Finset.sum_le_sum_of_subset (Finset.erase_subset_erase c hsub)

section Delivered

variable {h' : Hub} {gone : List Peer}

theorem Delivered.evictedBy_eq {f : Frame} {targets : List Peer}
    (hd : Delivered h f targets gone h') : h.evictedBy h' = gone.toFinset := by
  ext p
  simp only [evictedBy, Finset.mem_sdiff, List.mem_toFinset, hd.mem_registered, not_and_not_right]
  exact ⟨fun hp => hp.2 hp.1, fun hp => ⟨hd.gone_registered p hp, fun _ => hp⟩⟩

theorem Delivered.absorbs (hd : Delivered h (.event e) (a.audience h) gone h')
    (hq : h.Quiescent) : h.Absorbs a e gone.toFinset := by
  intro c hc hfull
  by_contra hstays
  rw [List.mem_toFinset] at hstays
  have hroom := hd.toCascade.length_le_free hq hd.listed hd.pending hc hstays
  rw [← coe_owedInTurn hd.gone_nodup, Multiset.coe_card] at hfull
  omega

/-- Each of those who go has been owed too much by those before it, all of whom are in any set
that absorbs. -/
theorem Delivered.subset_of_absorbs (hd : Delivered h (.event e) (a.audience h) gone h')
    (hq : h.Quiescent) {X : Finset Peer} (hX : h.Absorbs a e X) : gone.toFinset ⊆ X := by
  have hall : ∀ before after, gone = before ++ after → before.toFinset ⊆ X := by
    intro before
    induction before using List.reverseRecOn with
    | nil => exact fun _ _ => Finset.empty_subset X
    | append_singleton before d ih =>
      intro after heq
      rw [List.append_assoc, List.singleton_append] at heq
      have hbefore := ih (d :: after) heq
      have hreg : d ∈ h.registered :=
        hd.gone_registered d (heq ▸ List.mem_append_right before List.mem_cons_self)
      have hnodup : before.Nodup := (List.nodup_append.mp (heq ▸ hd.gone_nodup)).1
      -- those who went before `d` are in `X`, and their news alone is more than `d` can take
      have hover : (h.connection d).queue.free <
          (h.owedInTurn (.event e) (a.audience h) before d).length := by
        by_contra hroom
        rw [not_lt, ← Connection.isOpen_offerAll_iff _ (hq.isOpen hreg),
          hd.overdue before d after heq] at hroom
        exact Bool.false_ne_true hroom
      have hmore : (h.connection d).queue.free < (h.owed a e X d).card := by
        rw [← Multiset.coe_card, coe_owedInTurn hnodup] at hover
        exact hover.trans_le (card_owed_mono hbefore d)
      intro p hp
      rw [List.toFinset_append, Finset.mem_union] at hp
      rcases hp with hold | hlast
      · exact hbefore hold
      · obtain rfl := List.mem_singleton.mp (List.mem_toFinset.mp hlast)
        exact hX p hreg hmore
  exact hall gone [] (List.append_nil gone).symm

end Delivered

/-- A delivery from rest evicts the least set of connections that absorbs what it gives rise to.
The set and the rooms lose them and nobody else, and each survivor has taken all that it was
owed, after what it had before. -/
theorem post_evicts_least (hq : h.Quiescent) (ha : a.Registered h) (e : Event) :
    IsLeast { gone : Finset Peer | h.Absorbs a e gone } (h.evictedBy (h.post a e)) ∧
      (h.post a e).registered =
        h.registered.filter (fun p => p ∉ h.evictedBy (h.post a e)) ∧
      (∀ channel, (h.post a e).rooms.members channel =
        (h.rooms.members channel).filter fun p => p ∉ h.evictedBy (h.post a e)) ∧
      (∀ r ∈ (h.post a e).rooms.rooms, r.members ≠ []) ∧
      (∀ c ∈ h.registered, c ∉ h.evictedBy (h.post a e) →
        ∃ frames : List Frame,
          (h.post a e).connection c = (h.connection c).taking frames ∧
            (frames : Multiset Frame) = h.owed a e (h.evictedBy (h.post a e)) c) ∧
      (∀ d ∈ h.evictedBy (h.post a e), ((h.post a e).connection d).state = .closed ∧
        ((h.post a e).connection d).queue.closed = true) ∧
      (h.post a e).counters.evicted =
        h.counters.evicted + (h.evictedBy (h.post a e)).card := by
  obtain ⟨gone, hd⟩ :=
    exists_delivered hq (.event e) (receivers_audience hq.toWellFormed ha)
  rw [← post_eq_deliver] at hd
  rw [hd.evictedBy_eq]
  simp only [List.mem_toFinset]
  refine ⟨⟨hd.absorbs hq, fun X hX => hd.subset_of_absorbs hq hX⟩, hd.registered, ?_, ?_,
    ?_, ?_, ?_⟩
  · intro channel
    rw [hd.rooms]
    exact Rooms.members_restrict _ hq.rooms.channels_nodup channel
  · exact (hd.wellFormed hq.toWellFormed).rooms.inhabited
  · intro c hc hstays
    exact ⟨_, hd.survivor_takes hq hc hstays, coe_owedInTurn hd.gone_nodup c⟩
  · intro d hgone
    rw [hd.removed d hgone]
    exact ⟨rfl, rfl⟩
  · rw [hd.counters, List.toFinset_card_of_nodup hd.gone_nodup]

/-- Ann, whose queue is full, and Bob, who can take two frames, are in a room; Eve is not. -/
def packedHall : Hub where
  limits := .standard
  table :=
    [⟨⟨0, .fresh 0, "ann"⟩, none, .active, ⟨1, [.event .pong], false, false⟩⟩,
      ⟨⟨1, .fresh 1, "bob"⟩, none, .active, ⟨2, [], false, false⟩⟩,
      ⟨⟨2, .fresh 2, "eve"⟩, none, .active, ⟨8, [], false, false⟩⟩]
  registered := [⟨0, .fresh 0, "ann"⟩, ⟨1, .fresh 1, "bob"⟩, ⟨2, .fresh 2, "eve"⟩]
  rooms := ⟨[⟨"hall", [⟨0, .fresh 0, "ann"⟩, ⟨1, .fresh 1, "bob"⟩]⟩]⟩
  counters := .zero
  pending := []
  draining := false

theorem quiescent_packedHall : packedHall.Quiescent where
  known := by decide
  ids_nodup := by decide
  rooms := ⟨List.pairwise_singleton _ _, by decide, by decide⟩
  members := by decide
  active := by decide
  queue_open := by decide
  pending := rfl
  draining := rfl

/-- Ann cannot take the event, and Bob cannot take the news of her as well. -/
theorem packedHall_evicts_ann_and_bob :
    packedHall.evictedBy (packedHall.post .everyone .pong) =
      {⟨0, .fresh 0, "ann"⟩, ⟨1, .fresh 1, "bob"⟩} := by
  have ha : Address.everyone.Registered packedHall := trivial
  obtain ⟨habsorbs, hleast⟩ := (post_evicts_least quiescent_packedHall ha .pong).1
  have henough : packedHall.Absorbs .everyone .pong
      {⟨0, .fresh 0, "ann"⟩, ⟨1, .fresh 1, "bob"⟩} := by
    unfold Absorbs
    decide
  apply Finset.Subset.antisymm (hleast henough)
  have hann : (⟨0, .fresh 0, "ann"⟩ : Peer) ∈
      packedHall.evictedBy (packedHall.post .everyone .pong) := by
    apply habsorbs _ (by decide)
    exact Nat.lt_of_lt_of_le (by decide) (card_owed_mono (Finset.empty_subset _) _)
  have hbob : (⟨1, .fresh 1, "bob"⟩ : Peer) ∈
      packedHall.evictedBy (packedHall.post .everyone .pong) := by
    apply habsorbs _ (by decide)
    exact Nat.lt_of_lt_of_le (by decide)
      (card_owed_mono (Finset.singleton_subset_iff.mpr hann) _)
  exact Finset.insert_subset hann (Finset.singleton_subset_iff.mpr hbob)

end Hub

end ChatHub
