import ChatHub.Proofs.Hub.History
import ChatHub.Proofs.Hub.Trail
/-!
Closing is one-way.  No move takes a connection back in its life, opens a queue again or lets a
connection with a closed queue into a room, and so nothing that is made of moves does, in whatever
order it is asked for.
-/

namespace ChatHub

/-- A connection later on: no less far in its life, and if its queue was closed, that is still
closed and holds nothing but what is left of what it held. -/
structure Connection.Ages (c c' : Connection) : Prop where
  peer_eq : c'.peer = c.peer
  rank_le : c.state.rank ≤ c'.state.rank
  closed : c.queue.closed = true → c'.queue.closed = true
  waiting : c.queue.closed = true → c'.queue.waiting <:+ c.queue.waiting

namespace Connection.Ages

variable {c c' c'' : Connection}

theorem refl (c : Connection) : c.Ages c :=
  ⟨rfl, Nat.le_refl _, id, fun _ => List.suffix_refl _⟩

theorem trans (h₁ : c.Ages c') (h₂ : c'.Ages c'') : c.Ages c'' where
  peer_eq := h₂.peer_eq.trans h₁.peer_eq
  rank_le := Nat.le_trans h₁.rank_le h₂.rank_le
  closed := fun hclosed => h₂.closed (h₁.closed hclosed)
  waiting := fun hclosed => (h₂.waiting (h₁.closed hclosed)).trans (h₁.waiting hclosed)

/-- A change that puts no frame into the queue. -/
theorem of_grows (hpeer : c'.peer = c.peer) (hg : c.Grows (fun _ => False) c') : c.Ages c' := by
  refine ⟨hpeer, hg.rank_le, hg.closed, fun _ => ?_⟩
  obtain ⟨fs, hfs, hnone⟩ := hg.waiting
  have heq : c'.queue.waiting = c.queue.waiting := by
    rw [hfs, List.eq_nil_iff_forall_not_mem.mpr hnone, List.append_nil]
  exact heq ▸ List.suffix_refl _

theorem put (f : Frame) (c : Connection) : c.Ages (c.put f) := by
  rw [Connection.put]
  split
  next q hsend =>
    have hopen : c.queue.closed = false := by
      by_contra hclosed
      rw [Bool.not_eq_false] at hclosed
      simp [Queue.send, hclosed] at hsend
    refine ⟨rfl, Nat.le_refl _, fun hclosed => ?_, fun hclosed => ?_⟩
    · rw [hopen] at hclosed
      cases hclosed
    · rw [hopen] at hclosed
      cases hclosed
  next => exact refl c

theorem pull (c : Connection) : c.Ages c.pull := by
  rw [Connection.pull]
  split
  next f q htake =>
    obtain ⟨hwaiting, hrest⟩ := Queue.eq_cons_of_take htake
    refine ⟨rfl, Nat.le_refl _, fun hclosed => ?_, fun _ => ?_⟩
    · rw [hrest]
      exact hclosed
    · rw [hwaiting]
      exact List.suffix_cons f q.waiting
  next => exact refl c

theorem not_open (hage : c.Ages c') (hc : c.isOpen = false) : c'.isOpen = false :=
  not_open_of_rank_le hage.rank_le hc

end Connection.Ages

namespace Hub

theorem Touch.ages (t : Touch) (c : Connection) : c.Ages (t.apply c) := by
  cases t with
  | activate => exact .of_grows (peer_activate c) (.activate _ c)
  | beginClose => exact .of_grows (peer_beginClose c) (.beginClose _ c)
  | closeQueue => exact .of_grows rfl (.closeQueue _ c)
  | markClosed => exact .of_grows rfl (.markClosed _ c)
  | view channel => exact .of_grows rfl (.view _ channel c)
  | put f => exact .put f c
  | pull => exact .pull c
  | abandon => exact ⟨rfl, Nat.le_refl _, id, fun _ => List.nil_suffix⟩

section Ages

variable {h : Hub} {i : Nat} {c : Connection}

theorem ages_move (hc : h.table[i]? = some c) (m : Move) :
    ∃ c', (h.move m).table[i]? = some c' ∧ c.Ages c' := by
  obtain ⟨c', hc', rfl | ⟨t, rfl⟩⟩ := touched_move hc m
  · exact ⟨c', hc', .refl c'⟩
  · exact ⟨t.apply c, hc', t.ages c⟩

theorem ages_moved (hc : h.table[i]? = some c) (ms : List Move) :
    ∃ c', (h.moved ms).table[i]? = some c' ∧ c.Ages c' :=
  holds_moved (fun t _ hage => hage.trans (t.ages _)) hc (.refl c) ms

theorem Trail.ages {h' : Hub} (t : Trail h h') (hc : h.table[i]? = some c) :
    ∃ c', h'.table[i]? = some c' ∧ c.Ages c' := by
  obtain ⟨c', hc', hage⟩ := ages_moved hc t.moves
  exact ⟨c', t.moved_eq ▸ hc', hage⟩

end Ages

section Closings

/-- The move starts to take down the connection numbered `i`, which nobody has done before. -/
def starts (h : Hub) (i : Nat) : Move → Bool
  | .touch p .beginClose => p.handle == i && (h.connection p).isOpen
  | _ => false

/-- How often the connection numbered `i` starts to be taken down. -/
def closings (i : Nat) : Hub → List Move → Nat
  | _, [] => 0
  | h, m :: ms => (if h.starts i m then 1 else 0) + closings i (h.move m) ms

variable {h : Hub} {i : Nat}

theorem exists_peer_of_starts {m : Move} (hm : h.starts i m = true) :
    ∃ p, m = .touch p .beginClose ∧ p.handle = i ∧ (h.connection p).isOpen = true := by
  cases m with
  | touch p t =>
    cases t with
    | beginClose =>
      obtain ⟨hi, hopen⟩ := (Bool.and_eq_true _ _).mp hm
      exact ⟨p, rfl, by simpa using hi, hopen⟩
    | _ => cases hm
  | _ => cases hm

theorem closings_eq_zero {c : Connection} (hc : h.table[i]? = some c) (hclosed : c.isOpen = false)
    (ms : List Move) : closings i h ms = 0 := by
  induction ms generalizing h c with
  | nil => rfl
  | cons m ms ih =>
    have hnot : h.starts i m = false := by
      by_contra hm
      obtain ⟨p, rfl, hi, hopen⟩ := exists_peer_of_starts (Bool.not_eq_false _ ▸ hm)
      rw [connection, hi, hc, Option.getD_some, hclosed] at hopen
      cases hopen
    obtain ⟨c', hc', hage⟩ := ages_move hc m
    rw [closings, hnot, ih hc' (hage.not_open hclosed)]
    rfl

theorem closings_append (i : Nat) (h : Hub) (ms ms' : List Move) :
    closings i h (ms ++ ms') = closings i h ms + closings i (h.moved ms) ms' := by
  induction ms generalizing h with
  | nil => exact (Nat.zero_add _).symm
  | cons m ms ih =>
    rw [List.cons_append, closings, closings, ih, Nat.add_assoc]
    rfl

/-- Whoever is first to take a connection down is the only one. -/
theorem closings_le_one (i : Nat) (h : Hub) (ms : List Move) : closings i h ms ≤ 1 := by
  induction ms generalizing h with
  | nil => exact Nat.zero_le 1
  | cons m ms ih =>
    rw [closings]
    split
    next hm =>
      obtain ⟨p, rfl, hi, hopen⟩ := exists_peer_of_starts hm
      cases hc : h.table[i]? with
      | none =>
        rw [connection, hi, hc] at hopen
        cases hopen
      | some c =>
        have hc' : (h.move (.touch p .beginClose)).table[i]? = some c.beginClose := by
          simp only [move, update, List.getElem?_modify, hi, if_true, hc]
          rfl
        exact Nat.le_of_eq (congrArg (1 + ·) (closings_eq_zero hc' (isOpen_beginClose c) ms))
    next => exact (Nat.zero_add _).symm ▸ ih (h.move m)

end Closings

section Barred

/-- A connection with a closed queue that is in no room. -/
structure Barred (p : Peer) (h : Hub) : Prop where
  closed : ∃ c, h.table[p.handle]? = some c ∧ c.queue.closed = true
  outside : ∀ r ∈ h.rooms.rooms, p ∉ r.members

variable {p : Peer} {h : Hub}

theorem not_mem_of_leaveAll (rs : Rooms) (p : Peer) :
    ∀ r ∈ (rs.leaveAll p.id).1.rooms, p ∉ r.members := by
  intro r hr hp
  rw [Rooms.leaveAll_rooms] at hr
  obtain ⟨s, _, _, rfl⟩ := (Rooms.mem_restrict _).mp hr
  simpa using (List.mem_filter.mp hp).2

/-- Whoever leaves, nobody comes in. -/
theorem exists_room_of_mem_leave {rs : Rooms} {channel : ChannelId} {id : ConnectionId} {r : Room}
    (hr : r ∈ (rs.leave channel id).1.rooms) : ∃ s ∈ rs.rooms, r.members ⊆ s.members := by
  obtain ⟨s, hs, heq⟩ := List.mem_filterMap.mp hr
  refine ⟨s, hs, ?_⟩
  split at heq
  next =>
    split at heq
    next => cases heq
    next =>
      cases heq
      exact List.filter_subset_self _
  next =>
    cases heq
    exact List.Subset.refl _

theorem Barred.move (hb : h.Barred p) (m : Move) : (h.move m).Barred p := by
  obtain ⟨c, hc, hclosed⟩ := hb.closed
  obtain ⟨c', hc', hage⟩ := ages_move hc m
  refine ⟨⟨c', hc', hage.closed hclosed⟩, ?_⟩
  cases m with
  | enter q channel =>
    intro r hr hp
    simp only [Hub.move, Rooms.join] at hr
    split at hr
    next => exact hb.outside r hr hp
    next hopen =>
      have hne : p ≠ q := by
        rintro rfl
        rw [connection, hc] at hopen
        exact hopen hclosed
      rcases Rooms.mem_insert hr with hold | rfl | ⟨s, hs, _, rfl⟩
      · exact hb.outside r hold hp
      · exact hne (List.mem_singleton.mp hp)
      · exact hb.outside s hs ((mem_insertPeer.mp hp).resolve_left hne).1
  | exit channel id =>
    intro r hr hp
    obtain ⟨s, hs, hsub⟩ := exists_room_of_mem_leave hr
    exact hb.outside s hs (hsub hp)
  | exitAll id =>
    intro r hr hp
    change r ∈ (h.rooms.leaveAll id).1.rooms at hr
    rw [Rooms.leaveAll_rooms] at hr
    obtain ⟨s, hs, _, rfl⟩ := (Rooms.mem_restrict _).mp hr
    exact hb.outside s hs (List.mem_filter.mp hp).1
  | make | touch | enlist | strike | note => exact hb.outside

theorem Barred.moved (hb : h.Barred p) (ms : List Move) : (h.moved ms).Barred p := by
  induction ms generalizing h with
  | nil => exact hb
  | cons m ms ih => exact ih (hb.move m)

theorem Trail.barred {h' : Hub} (t : Trail h h') (hb : h.Barred p) : h'.Barred p :=
  t.moved_eq ▸ hb.moved t.moves

theorem Barred.not_mem_members (hb : h.Barred p) (channel : ChannelId) :
    p ∉ h.rooms.members channel := by
  intro hp
  obtain ⟨r, hr, _, hmem⟩ := Rooms.exists_room_of_mem_members hp
  exact hb.outside r hr hmem

/-- Leaving all rooms with a closed queue is for good. -/
theorem barred_exitAll (hclosed : ∃ c, h.table[p.handle]? = some c ∧ c.queue.closed = true) :
    (h.move (.exitAll p.id)).Barred p :=
  ⟨hclosed, not_mem_of_leaveAll h.rooms p⟩

/-- Whatever happens between the closing and the leaving, and after it. -/
theorem not_mem_of_closed_then_left {ms : List Move} (hp : (h.moved ms).Knows p)
    (mid later : List Move) (channel : ChannelId) : p ∉ (h.moved
      (ms ++ .touch p .closeQueue :: (mid ++ .exitAll p.id :: later))).rooms.members channel := by
  obtain ⟨c, hc, _⟩ := Option.map_eq_some_iff.mp hp
  have hclosed : ((h.moved ms).move (.touch p .closeQueue)).table[p.handle]? =
      some c.closeQueue := by
    simp only [move, update, List.getElem?_modify, if_true, hc]
    rfl
  obtain ⟨c', hc', hage⟩ := ages_moved hclosed mid
  have hbarred := (barred_exitAll ⟨c', hc', hage.closed rfl⟩).moved later
  rw [moved_append]
  change p ∉ (((h.moved ms).move (.touch p .closeQueue)).moved _).rooms.members channel
  rw [moved_append]
  exact hbarred.not_mem_members channel

theorem barred_detach (hp : h.Knows p) : (h.detach p).Barred p := by
  obtain ⟨c, hc, _⟩ := Option.map_eq_some_iff.mp hp
  refine ⟨⟨c.beginClose.closeQueue, ?_, rfl⟩, not_mem_of_leaveAll h.rooms p⟩
  simp only [detach, update, List.getElem?_modify, if_true, hc]
  rfl

end Barred

section Numbered

/-- The table has every connection under its own number. -/
def Numbered (h : Hub) : Prop :=
  ∀ (i : Nat) (c : Connection), h.table[i]? = some c → c.peer.handle = i

/-- A move leaves the peers of the table as they are, and may bring a new one behind them. -/
theorem peer?_move {h : Hub} {m : Move} {i : Nat} {p : Peer} (hp : (h.move m).peer? i = some p) :
    h.peer? i = some p ∨ p.handle = i ∧ (p.id = .fresh i ∨ ∃ name, p.id = .named name) := by
  obtain ⟨c', hc', rfl⟩ := Option.map_eq_some_iff.mp hp
  cases hc : h.table[i]? with
  | some c =>
    obtain ⟨d, hd, hage⟩ := ages_move hc m
    rw [Option.some.inj (hc'.symm.trans hd), hage.peer_eq]
    exact Or.inl (congrArg (Option.map Connection.peer) hc)
  | none =>
    cases m with
    | make user capacity name =>
      have hle : h.table.length ≤ i := List.getElem?_eq_none_iff.mp hc
      have hlast := (List.getElem?_append_right hle).symm.trans hc'
      rw [List.getElem?_singleton] at hlast
      split at hlast
      next hzero =>
        obtain rfl := Option.some.inj hlast
        obtain rfl : h.table.length = i := Nat.le_antisymm hle (Nat.sub_eq_zero_iff_le.mp hzero)
        refine Or.inr ⟨rfl, ?_⟩
        cases name with
        | none => exact Or.inl rfl
        | some name => exact Or.inr ⟨name, rfl⟩
      next => cases hlast
    | touch p t =>
      simp only [Hub.move, update, List.getElem?_modify, hc] at hc'
      cases hc'
    | enlist | strike | enter | exit | exitAll | note =>
      exact absurd (hc.symm.trans hc') (Option.some_ne_none c').symm

theorem Numbered.move {h : Hub} (hn : h.Numbered) (m : Move) : (h.move m).Numbered := by
  intro i c' hc'
  rcases peer?_move (congrArg (Option.map Connection.peer) hc') with hold | ⟨hnew, _⟩
  · obtain ⟨c, hc, hpeer⟩ := Option.map_eq_some_iff.mp hold
    exact hpeer ▸ hn i c hc
  · exact hnew

theorem Numbered.moved {h : Hub} (hn : h.Numbered) (ms : List Move) : (h.moved ms).Numbered := by
  induction ms generalizing h with
  | nil => exact hn
  | cons m ms ih => exact ih (hn.move m)

theorem Numbered.run {h : Hub} (hn : h.Numbered) (ops : List Operation) : (h.run ops).Numbered :=
  (Trail.run h ops).moved_eq ▸ hn.moved _

end Numbered

section Operations

variable {h : Hub} {i : Nat} {c : Connection}

theorem peer?_of_getElem? (hc : h.table[i]? = some c) : h.peer? i = some c.peer := by
  rw [peer?, hc]
  rfl

theorem barred_unregister (hn : h.Numbered) (hc : h.table[i]? = some c) :
    (h.perform (.unregister i)).1.Barred c.peer := by
  have hpeer := peer?_of_getElem? hc
  have hknows : h.Knows c.peer := (congrArg h.peer? (hn i c hc)).trans hpeer
  simp only [perform, withPeer, hpeer]
  exact (Trail.takeLeave Trail.deliver c.peer h).barred (barred_detach hknows)

theorem barred_exitRooms (hn : h.Numbered) (hc : h.table[i]? = some c)
    (hclosed : c.queue.closed = true) : (h.perform (.exitRooms i)).1.Barred c.peer := by
  simp only [perform, withPeer, peer?_of_getElem? hc]
  exact barred_exitAll ⟨c, (hn i c hc).symm ▸ hc, hclosed⟩

/-- Whoever asks for a connection to be taken down and is told that this made a difference has
started it. -/
theorem closings_beginClose (hn : h.Numbered)
    (hwon : (h.perform (.beginClose i)).2 = .flag true) :
    closings i h (Trail.perform h (.beginClose i)).moves = 1 := by
  cases hpeer : h.peer? i with
  | none =>
    simp only [perform, withPeer, hpeer] at hwon
    cases hwon
  | some p =>
    obtain ⟨c, hc, rfl⟩ := Option.map_eq_some_iff.mp hpeer
    have hi : c.peer.handle = i := hn i c hc
    simp only [perform, withPeer, hpeer, change, Outcome.flag.injEq, bne_iff_ne] at hwon
    have hopen : (h.connection c.peer).isOpen = true := by
      by_contra hclosed
      exact hwon (if_neg hclosed)
    have hmoves : (Trail.perform h (.beginClose i)).moves = [.touch c.peer .beginClose] :=
      Trail.moves_withPeer (f := fun p => h.change p Connection.beginClose)
        (fun p => Trail.touch p .beginClose h) hpeer
    simp [hmoves, closings, starts, hi, hopen]

/-- Nothing else starts it, before or after. -/
theorem closings_around {before : List Operation} (hn : h.Numbered)
    (hwon : ((h.run before).perform (.beginClose i)).2 = .flag true) (after : List Operation) :
    closings i h (Trail.run h before).moves = 0 ∧
      closings i (h.run (before ++ [.beginClose i]))
        (Trail.run (h.run (before ++ [.beginClose i])) after).moves = 0 := by
  have hone := closings_beginClose (hn.run before) hwon
  have hall := closings_le_one i h (Trail.run h (before ++ .beginClose i :: after)).moves
  rw [Trail.moves_run_append, closings_append, (Trail.run h before).moved_eq,
    Trail.moves_run_cons, closings_append, (Trail.perform _ _).moved_eq, hone, ← run_concat] at hall
  omega

end Operations

/-- Whatever is asked of a hub and its connections, in whatever order: no connection goes back in
its life, and each starts to be taken down once at most, so that nobody else has done so where the
one who asks for it is told that it made a difference; a closed queue stays closed and gets no
frame; and whoever has left all rooms with a closed queue, by itself or in the course of a removal,
is in no room any more. -/
theorem closing_is_final (limits : Limits) (ops : List Operation) :
    let start := new limits
    let moves := (Trail.run start ops).moves
    start.moved moves = run start ops ∧
      (∀ i, closings i start moves ≤ 1) ∧
      (∀ before i after, before ++ .beginClose i :: after = ops →
        ((run start before).perform (.beginClose i)).2 = .flag true →
        closings i start (Trail.run start before).moves = 0 ∧
          closings i (run start (before ++ [.beginClose i]))
            (Trail.run (run start (before ++ [.beginClose i])) after).moves = 0) ∧
      (∀ ms mid later p, ms ++ .touch p .closeQueue :: (mid ++ .exitAll p.id :: later) <+: moves →
        (start.moved ms).Knows p → ∀ channel, p ∉ (start.moved
          (ms ++ .touch p .closeQueue :: (mid ++ .exitAll p.id :: later))).rooms.members channel) ∧
      ∀ before after, before ++ after = ops → ∀ i c, (run start before).table[i]? = some c →
        (∃ c', (run start ops).table[i]? = some c' ∧ c.Ages c') ∧
        ((∃ later, after = .unregister i :: later) ∨
          c.queue.closed = true ∧ (∃ mid later, after = mid ++ .exitRooms i :: later) →
            ∀ channel, c.peer ∉ (run start ops).rooms.members channel) := by
  intro start moves
  have hstart : start.Numbered := by
    intro i c hc
    simp [start, new] at hc
  refine ⟨(Trail.run start ops).moved_eq, fun i => closings_le_one i start moves, ?_, ?_, ?_⟩
  · rintro before i after rfl hwon
    exact closings_around hstart hwon after
  · exact fun ms mid later p _ hp => not_mem_of_closed_then_left hp mid later
  · rintro before after rfl i c hc
    rw [run_append]
    have hn := hstart.run before
    refine ⟨(Trail.run (run start before) after).ages hc, ?_⟩
    rintro (⟨later, rfl⟩ | ⟨hclosed, mid, later, rfl⟩) channel
    · exact ((Trail.run _ later).barred (barred_unregister hn hc)).not_mem_members channel
    · obtain ⟨c', hc', hage⟩ := (Trail.run (run start before) mid).ages hc
      have hbarred := barred_exitRooms (hn.run mid) hc' (hage.closed hclosed)
      rw [hage.peer_eq] at hbarred
      rw [run_append]
      exact ((Trail.run _ later).barred hbarred).not_mem_members channel

/-- Ann closes her queue and leaves her rooms, and is let into none again, whatever she tries. -/
theorem ann_stays_out :
    let ops : List Operation := [.connect "ann", .join 0 "hall", .closeQueue 0, .join 0 "den",
      .exitRooms 0, .register 0, .enterRoom 0 "hall", .join 0 "den", .beginClose 0, .unregister 0]
    closings 0 (new .standard) (Trail.run (new .standard) ops).moves = 1 ∧
      ∀ channel, ⟨0, .fresh 0, "ann"⟩ ∉ (run (new .standard) ops).rooms.members channel := by
  intro ops
  obtain ⟨_, hone, _, _, hlater⟩ := closing_is_final .standard ops
  have hann : (run (new .standard) [.connect "ann", .join 0 "hall", .closeQueue 0]).table[0]? =
      some ⟨⟨0, .fresh 0, "ann"⟩, none, .active,
        ⟨256, [.event ⟨.voiceRoomState, .roomState ⟨"hall", []⟩⟩,
          .event (.joined "hall" "ann")], true, false⟩⟩ := by decide +kernel
  have hstarted : 1 ≤ closings 0 (new .standard) (Trail.run (new .standard) ops).moves := by
    decide +kernel
  refine ⟨Nat.le_antisymm (hone 0) hstarted, ?_⟩
  exact (hlater _ [.join 0 "den", .exitRooms 0, .register 0, .enterRoom 0 "hall", .join 0 "den",
    .beginClose 0, .unregister 0] rfl 0 _ hann).2 (Or.inr ⟨rfl, [.join 0 "den"], _, rfl⟩)

end Hub

end ChatHub
