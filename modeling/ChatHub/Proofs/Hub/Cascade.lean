import ChatHub.Proofs.Hub.Removal
/-!
A delivery with all the removals that it sets off.  Whatever is said while they go on is fixed by
the rooms before the call and by who is gone already, so the whole cascade is described by the list
of those who are gone, in the order in which they went.
-/

namespace ChatHub.Hub

/-- At rest between two operations: whoever is registered is active and can be sent to, and
nobody waits to be removed. -/
structure Quiescent (h : Hub) : Prop extends h.WellFormed where
  active : ∀ p ∈ h.registered, (h.connection p).state = .active
  queue_open : ∀ p ∈ h.registered, (h.connection p).queue.closed = false
  pending : h.pending = []
  draining : h.draining = false

theorem Quiescent.isOpen {h : Hub} (hq : h.Quiescent) {p : Peer} (hp : p ∈ h.registered) :
    (h.connection p).isOpen = true := by
  simp only [Connection.isOpen, hq.active p hp]
  rfl

theorem Quiescent.listed {h : Hub} (hq : h.Quiescent) : h.Listed where
  nodup := hq.pending ▸ List.nodup_nil
  mem_iff := by
    intro p
    rw [hq.pending]
    constructor
    · exact fun hp => absurd hp List.not_mem_nil
    · rintro ⟨hp, hclosed⟩
      rw [hq.isOpen hp] at hclosed
      cases hclosed

section Rooms

variable {h : Hub} (hq : h.Quiescent)

include hq

/-- Other rooms that let in nobody from outside the set. -/
theorem Quiescent.withRooms {rooms : Rooms} (hvalid : rooms.Valid)
    (hmembers : ∀ r ∈ rooms.rooms, ∀ p ∈ r.members, p ∈ h.registered) :
    ({ h with rooms } : Hub).Quiescent :=
  ⟨⟨hq.known, hq.ids_nodup, hvalid, hmembers⟩, hq.active, hq.queue_open, hq.pending, hq.draining⟩

theorem Quiescent.enter {p : Peer} (hp : p ∈ h.registered) (channel : ChannelId) :
    ({ h with rooms := ⟨Rooms.insert channel p h.rooms.rooms⟩ } : Hub).Quiescent := by
  apply hq.withRooms (hq.rooms.insert channel p)
  intro r hr q hin
  rcases Rooms.mem_insert hr with hold | rfl | ⟨s, hs, _, rfl⟩
  · exact hq.members r hold q hin
  · exact List.mem_singleton.mp hin ▸ hp
  · rcases mem_insertPeer.mp hin with rfl | ⟨hin, _⟩
    · exact hp
    · exact hq.members s hs q hin

/-- Anybody may be taken out of a room. -/
theorem Quiescent.exit (channel : ChannelId) (id : ConnectionId) :
    ({ h with rooms := (h.rooms.leave channel id).1 } : Hub).Quiescent := by
  apply hq.withRooms (hq.rooms.leave channel id)
  intro r hr q hin
  rw [Rooms.leave_rooms hq.rooms] at hr
  obtain ⟨s, hs, _, rfl⟩ := (Rooms.mem_restrict _).mp hr
  exact hq.members s hs q (List.mem_filter.mp hin).1

end Rooms

/-- What `p` is sent when `f` goes to `targets` and then those in `gone` are removed in turn.  It
hears nothing of its own removal. -/
def owedInTurn (h : Hub) (f : Frame) (targets gone : List Peer) (p : Peer) : List Frame :=
  (if p ∈ targets then [f] else []) ++
    gone.flatMap fun d => if d = p then [] else h.farewells d p

theorem owedInTurn_concat (h : Hub) (f : Frame) (targets gone : List Peer) (d p : Peer) :
    h.owedInTurn f targets (gone ++ [d]) p =
      h.owedInTurn f targets gone p ++ if d = p then [] else h.farewells d p := by
  simp only [owedInTurn, List.flatMap_append, List.flatMap_cons, List.flatMap_nil,
    List.append_nil, List.append_assoc]

/-- From `h` to `h'` the frame `f` has gone to `targets` and those in `gone` have been
removed. -/
structure Cascade (h : Hub) (f : Frame) (targets gone : List Peer) (h' : Hub) : Prop where
  limits : h'.limits = h.limits
  registered : h'.registered = h.registered.filter fun q => q ∉ gone
  rooms : h'.rooms = h.rooms.without gone
  peer? : ∀ i, h'.peer? i = h.peer? i
  counters : h'.counters =
    { h.counters with
      events := h.counters.events + 1 + 2 * (gone.flatMap h.rooms.roomsOf).length
      evicted := h.counters.evicted + gone.length }
  gone_registered : ∀ d ∈ gone, d ∈ h.registered
  gone_nodup : gone.Nodup
  removed : ∀ d ∈ gone, h'.connection d =
    ((h.connection d).offerAll (h.owedInTurn f targets gone d)).shut
  survivor : ∀ p ∈ h.registered, p ∉ gone → h'.connection p =
    (h.connection p).offerAll (h.owedInTurn f targets gone p)
  bystander : ∀ q, q.handle ∉ h.registered.map Peer.handle →
    h'.connection q = h.connection q
  /-- Each of them had been owed more than it could take when its turn came. -/
  overdue : ∀ before d after, gone = before ++ d :: after →
    ((h.connection d).offerAll (h.owedInTurn f targets before d)).isOpen = false

namespace Cascade

variable {h h' : Hub} {f : Frame} {targets gone : List Peer}

theorem wellFormed (hc : Cascade h f targets gone h') (hw : h.WellFormed) : h'.WellFormed :=
  hw.of_without hc.registered hc.rooms hc.peer?

theorem mem_registered (hc : Cascade h f targets gone h') {p : Peer} :
    p ∈ h'.registered ↔ p ∈ h.registered ∧ p ∉ gone := by
  rw [hc.registered, List.mem_filter, decide_eq_true_eq]

/-- Those who have gone take nothing that is sent later. -/
theorem offerAll_gone (hc : Cascade h f targets gone h') {d : Peer} (hd : d ∈ gone)
    (fs : List Frame) :
    ((h.connection d).offerAll (h.owedInTurn f targets gone d)).offerAll fs =
      (h.connection d).offerAll (h.owedInTurn f targets gone d) := by
  obtain ⟨before, after, rfl⟩ := List.append_of_mem hd
  have hclosed := hc.overdue before d after rfl
  have hsplit : h.owedInTurn f targets (before ++ d :: after) d =
      h.owedInTurn f targets before d ++
        (d :: after).flatMap fun e => if e = d then [] else h.farewells e d := by
    simp only [owedInTurn, List.flatMap_append, List.append_assoc]
  rw [hsplit, Connection.offerAll_append, Connection.offerAll_of_not_open _ hclosed,
    Connection.offerAll_of_not_open _ hclosed]

/-- The first step: the frame goes out. -/
theorem start (hq : h.Quiescent) (htargets : h.Receivers targets) :
    Cascade h f targets [] (offer f targets h).1 where
  limits := offer_limits ..
  registered := by simp
  rooms := by
    rw [offer_rooms]
    exact (Rooms.restrict_eq_self hq.rooms.inhabited fun _ _ _ _ => by simp).symm
  peer? := offer_peer? f targets h
  counters := offer_counters ..
  gone_registered := by simp
  gone_nodup := List.nodup_nil
  removed := by simp
  survivor := by
    intro p hp _
    have hknown : ∀ q ∈ targets, h.Knows q := fun q hin => hq.known q (htargets.registered q hin)
    rw [offer_connection f hknown htargets.nodup (hq.known p hp)]
    simp only [owedInTurn, List.flatMap_nil, List.append_nil]
  bystander := by
    intro q hout
    apply offer_connection_of_not_mem
    intro hin
    obtain ⟨t, ht, heq⟩ := List.mem_map.mp hin
    exact hout (heq ▸ List.mem_map_of_mem (htargets.registered t ht))
  overdue := by simp

theorem farewells_eq (hc : Cascade h f targets gone h') (hw : h.WellFormed) {d p : Peer}
    (hd : d ∉ gone) (hp : p ∉ gone) : h'.farewells d p = h.farewells d p := by
  have hrooms : h'.rooms.roomsOf d = h.rooms.roomsOf d := by
    rw [hc.rooms]
    exact Rooms.roomsOf_restrict fun _ => by simpa using hd
  simp only [farewells, hrooms, hw.mem_members_without hc.rooms, hp, not_false_eq_true,
    and_true]

/-- Every further step: somebody who could not take more is removed. -/
theorem step (hc : Cascade h f targets gone h') (hw : h.WellFormed) {d : Peer} {h'' : Hub}
    (hd : d ∈ h'.registered) (hclosed : (h'.connection d).isOpen = false)
    (he : Evicted d h' h'') : Cascade h f targets (gone ++ [d]) h'' := by
  obtain ⟨hmem, hnot⟩ := hc.mem_registered.mp hd
  have hsame : h'.rooms.roomsOf d = h.rooms.roomsOf d := by
    rw [hc.rooms]
    exact Rooms.roomsOf_restrict fun _ => by simpa using hnot
  have hunregistered {q : Peer} (hq : q.handle ∉ h.registered.map Peer.handle) :
      q.handle ∉ h'.registered.map Peer.handle := by
    intro hin
    obtain ⟨r, hr, heq⟩ := List.mem_map.mp hin
    exact hq (heq ▸ List.mem_map_of_mem (hc.mem_registered.mp hr).1)
  constructor
  case limits => exact he.limits.trans hc.limits
  case registered =>
    rw [he.registered, hc.registered, List.filter_filter]
    apply List.filter_congr
    intro q _
    simp [and_comm]
  case rooms =>
    rw [he.rooms, hc.rooms, Rooms.without, Rooms.without, Rooms.restrict_restrict]
    apply Rooms.restrict_congr
    intro r _ q _
    simp
  case peer? => exact fun i => (he.peer? i).trans (hc.peer? i)
  case counters =>
    rw [he.counters, hc.counters, hsame]
    simp only [List.flatMap_append, List.flatMap_cons, List.flatMap_nil, List.append_nil,
      List.length_append, List.length_singleton]
    congr 1
    · omega
  case gone_registered =>
    intro q hq
    rcases List.mem_append.mp hq with hold | hnew
    · exact hc.gone_registered q hold
    · exact List.mem_singleton.mp hnew ▸ hmem
  case gone_nodup =>
    rw [List.nodup_append]
    refine ⟨hc.gone_nodup, List.nodup_singleton d, ?_⟩
    rintro q hq r hr rfl
    exact hnot (List.mem_singleton.mp hr ▸ hq)
  case removed =>
    intro q hq
    rw [owedInTurn_concat, Connection.offerAll_append]
    rcases List.mem_append.mp hq with hold | hnew
    · have hout : q.handle ∉ h'.registered.map Peer.handle := by
        intro hin
        obtain ⟨r, hr, heq⟩ := List.mem_map.mp hin
        have hr' := hc.mem_registered.mp hr
        have hsame := (hw.known r hr'.1).eq_of_handle
          (hw.known q (hc.gone_registered q hold)) heq
        exact hr'.2 (hsame ▸ hold)
      rw [he.bystander q hout, hc.removed q hold, hc.offerAll_gone hold]
    · obtain rfl := List.mem_singleton.mp hnew
      rw [he.removed, hc.survivor q hmem hnot, if_pos rfl, Connection.offerAll_nil]
  case survivor =>
    intro p hp hstays
    simp only [List.mem_append, List.mem_singleton, not_or] at hstays
    rw [he.survivor p (hc.mem_registered.mpr ⟨hp, hstays.1⟩) hstays.2,
      hc.survivor p hp hstays.1, hc.farewells_eq hw hnot hstays.1, owedInTurn_concat,
      if_neg (Ne.symm hstays.2), Connection.offerAll_append]
  case bystander => exact fun q hq => (he.bystander q (hunregistered hq)).trans (hc.bystander q hq)
  case overdue =>
    intro before e after heq
    -- either `e` is the one who goes now, or its turn was earlier
    rcases List.eq_nil_or_concat after with rfl | ⟨after, b, rfl⟩
    · obtain ⟨rfl, hlast⟩ := List.append_inj' heq rfl
      obtain rfl := (List.cons.inj hlast).1
      rw [← hc.survivor d hmem hnot]
      exact hclosed
    · rw [List.concat_eq_append, ← List.cons_append, ← List.append_assoc] at heq
      obtain ⟨hinit, _⟩ := List.append_inj' heq rfl
      exact hc.overdue before e after hinit

/-- The loop goes on until nobody is left on the list. -/
theorem evictPending (hc : Cascade h f targets gone h') (hw : h.WellFormed)
    (hl : h'.Listed) :
    ∃ gone', Cascade h f targets gone' h'.evictPending ∧ h'.evictPending.pending = [] ∧
      h'.evictPending.Listed := by
  induction h' using Hub.evictPending.induct generalizing gone with
  | case1 h' hnil =>
    rw [evictPending_of_nil hnil]
    exact ⟨gone, hc, hnil, hl⟩
  | case2 h' d rest hcons ih =>
    have hw' := hc.wellFormed hw
    have hd := (hl.mem_iff d).mp (hcons ▸ List.mem_cons_self)
    have hevicted : Evicted d h' (Hub.evict d { h' with pending := rest }) := by
      let g : Hub := { h' with pending := rest }
      have hwg : g.WellFormed := ⟨hw'.known, hw'.ids_nodup, hw'.rooms, hw'.members⟩
      have he := evicted_evict hwg (hwg.distinguishes hd.1) hd.1
      exact ⟨he.limits, he.registered, he.rooms, he.peer?, he.counters, he.removed,
        he.survivor, he.bystander⟩
    rw [evictPending_of_cons hcons]
    exact ih (hc.step hw hd.1 hd.2 hevicted) (hl.evict hw' (hw'.distinguishes hd.1) hcons)

/-- Whether the loop is running makes no difference to what has happened. -/
theorem setDraining (hc : Cascade h f targets gone h') (b : Bool) :
    Cascade h f targets gone { h' with draining := b } :=
  ⟨hc.limits, hc.registered, hc.rooms, hc.peer?, hc.counters, hc.gone_registered,
    hc.gone_nodup, hc.removed, hc.survivor, hc.bystander, hc.overdue⟩

/-- A survivor at the end has taken all that it was sent. -/
theorem length_le_free (hc : Cascade h f targets gone h') (hq : h.Quiescent)
    (hl : h'.Listed) (hpending : h'.pending = []) {p : Peer} (hp : p ∈ h.registered)
    (hstays : p ∉ gone) :
    (h.owedInTurn f targets gone p).length ≤ (h.connection p).queue.free := by
  rw [← Connection.isOpen_offerAll_iff _ (hq.isOpen hp), ← hc.survivor p hp hstays]
  by_contra hclosed
  have hin := (hl.mem_iff p).mpr ⟨hc.mem_registered.mpr ⟨hp, hstays⟩, by simpa using hclosed⟩
  rw [hpending] at hin
  exact List.not_mem_nil hin

end Cascade

/-- What a delivery from rest comes to: a cascade with nobody left to remove. -/
structure Delivered (h : Hub) (f : Frame) (targets gone : List Peer) (h' : Hub) : Prop
    extends Cascade h f targets gone h' where
  listed : h'.Listed
  pending : h'.pending = []
  draining : h'.draining = false

theorem exists_delivered {h : Hub} (hq : h.Quiescent) (f : Frame) {targets : List Peer}
    (htargets : h.Receivers targets) :
    ∃ gone, Delivered h f targets gone (deliver f targets h).1 := by
  have hstart := Cascade.start (f := f) hq htargets
  have hlisted := hq.listed.offer f hq.known htargets
  by_cases hdead : (push f targets h).dead = []
  · have hdeliver : (deliver f targets h).1 = (offer f targets h).1 := by
      simp only [deliver, offer, hdead, List.isEmpty_nil, if_true]
    have hpending : (offer f targets h).1.pending = [] := by
      simp only [offer, record, hdead, List.reverse_nil, List.nil_append, push_pending,
        hq.pending]
    rw [hdeliver]
    exact ⟨[], hstart, hlisted, hpending, (offer_draining ..).trans hq.draining⟩
  · let g : Hub := { (offer f targets h).1 with draining := true }
    have hdeliver : (deliver f targets h).1 = { g.evictPending with draining := false } := by
      have hnot : (record (push f targets h)).draining = false :=
        (offer_draining f targets h).trans hq.draining
      simp only [deliver, List.isEmpty_eq_false_iff.mpr hdead, drain, hnot,
        Bool.false_eq_true, if_false]
      rfl
    have hg : g.Listed := ⟨hlisted.nodup, hlisted.mem_iff⟩
    obtain ⟨gone, hc, hpending, hl⟩ :=
      (hstart.setDraining true).evictPending hq.toWellFormed hg
    rw [hdeliver]
    exact ⟨gone, hc.setDraining false, ⟨hl.nodup, hl.mem_iff⟩, hpending, rfl⟩

namespace Delivered

variable {h h' : Hub} {f : Frame} {targets gone : List Peer}

theorem mem_registered (hd : Delivered h f targets gone h') {p : Peer} :
    p ∈ h'.registered ↔ p ∈ h.registered ∧ p ∉ gone :=
  hd.toCascade.mem_registered

theorem survivor_takes (hd : Delivered h f targets gone h') (hq : h.Quiescent) {p : Peer}
    (hp : p ∈ h.registered) (hstays : p ∉ gone) :
    h'.connection p = (h.connection p).taking (h.owedInTurn f targets gone p) := by
  rw [hd.survivor p hp hstays]
  exact Connection.offerAll_of_le_free (hq.isOpen hp)
    (hd.toCascade.length_le_free hq hd.listed hd.pending hp hstays)

/-- A delivery leaves the hub at rest. -/
theorem quiescent (hd : Delivered h f targets gone h') (hq : h.Quiescent) : h'.Quiescent where
  toWellFormed := hd.wellFormed hq.toWellFormed
  active := by
    intro p hp
    obtain ⟨hreg, hstays⟩ := hd.mem_registered.mp hp
    rw [hd.survivor_takes hq hreg hstays]
    exact hq.active p hreg
  queue_open := by
    intro p hp
    obtain ⟨hreg, hstays⟩ := hd.mem_registered.mp hp
    rw [hd.survivor_takes hq hreg hstays]
    exact hq.queue_open p hreg
  pending := hd.pending
  draining := hd.draining

end Delivered

end ChatHub.Hub
