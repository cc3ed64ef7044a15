import ChatHub.Proofs.Hub.Names
/-!
Who is in which room, before and after somebody comes or goes.  Leaving a room, leaving all of them
and taking out a whole group are one operation: every room keeps some of its members and is
dropped when none is left.
-/

namespace ChatHub

namespace Rooms

/-- No room is listed twice, nobody is in one twice and somebody is in each. -/
structure Valid (rs : Rooms) : Prop where
  channels_nodup : (rs.rooms.map Room.channel).Nodup
  inhabited : ∀ r ∈ rs.rooms, r.members ≠ []
  ids_nodup : ∀ r ∈ rs.rooms, (r.members.map Peer.id).Nodup

theorem valid_empty : empty.Valid := ⟨.nil, by simp [empty], by simp [empty]⟩

theorem members_cons (r : Room) (rest : List Room) (channel : ChannelId) :
    members ⟨r :: rest⟩ channel =
      if r.channel = channel then r.members else members ⟨rest⟩ channel := by
  by_cases heq : r.channel = channel
  · simp [members, heq]
  · simp [members, heq]

theorem members_eq_nil {rooms : List Room} {channel : ChannelId}
    (hnot : channel ∉ rooms.map Room.channel) : members ⟨rooms⟩ channel = [] := by
  induction rooms with
  | nil => rfl
  | cons r rest ih =>
    simp only [List.map_cons, List.mem_cons, not_or] at hnot
    rw [members_cons, if_neg fun heq => hnot.1 heq.symm, ih hnot.2]

theorem members_of_mem {rs : Rooms} (hrs : (rs.rooms.map Room.channel).Nodup) {r : Room}
    (hr : r ∈ rs.rooms) : rs.members r.channel = r.members := by
  obtain ⟨rooms⟩ := rs
  induction rooms with
  | nil => simp at hr
  | cons s rest ih =>
    simp only [List.map_cons, List.nodup_cons] at hrs
    rw [members_cons]
    rcases List.mem_cons.mp hr with rfl | hrest
    · rw [if_pos rfl]
    · have hne : r.channel ≠ s.channel := fun heq =>
        hrs.1 (heq ▸ List.mem_map_of_mem hrest)
      rw [if_neg hne.symm, ih hrs.2 hrest]

theorem Valid.members_nodup {rs : Rooms} (hrs : rs.Valid) (channel : ChannelId) :
    (rs.members channel).Nodup := by
  rw [members]
  split
  next r hr => exact (hrs.ids_nodup r (List.mem_of_find?_eq_some hr)).of_map Peer.id
  next => exact List.nodup_nil

theorem exists_room_of_mem_members {rs : Rooms} {channel : ChannelId} {p : Peer}
    (hp : p ∈ rs.members channel) :
    ∃ r ∈ rs.rooms, r.channel = channel ∧ p ∈ r.members := by
  rw [members] at hp
  split at hp
  next r hr =>
    exact ⟨r, List.mem_of_find?_eq_some hr, by simpa using List.find?_some hr, hp⟩
  next => simp at hp

/-- The rooms that a connection is in, in increasing order. -/
def roomsOf (rs : Rooms) (p : Peer) : List ChannelId :=
  sortNames ((rs.rooms.filter fun r => p ∈ r.members).map Room.channel)

theorem mem_roomsOf {rs : Rooms} (hrs : (rs.rooms.map Room.channel).Nodup) {p : Peer}
    {channel : ChannelId} : channel ∈ rs.roomsOf p ↔ p ∈ rs.members channel := by
  rw [roomsOf, mem_sortNames]
  constructor
  · intro hmem
    obtain ⟨r, hr, rfl⟩ := List.mem_map.mp hmem
    simp only [List.mem_filter, decide_eq_true_eq] at hr
    rw [members_of_mem hrs hr.1]
    exact hr.2
  · intro hp
    obtain ⟨r, hr, rfl, hmem⟩ := exists_room_of_mem_members hp
    exact List.mem_map_of_mem (List.mem_filter.mpr ⟨hr, by simpa using hmem⟩)

section Restrict

/-- Keeps of every room the members that `keep` picks, and the room only if there are any. -/
def restrict (keep : ChannelId → Peer → Bool) (rs : Rooms) : Rooms :=
  ⟨rs.rooms.filterMap fun r =>
    match r.members.filter (keep r.channel) with
    | [] => none
    | members => some { r with members := members }⟩

variable (keep : ChannelId → Peer → Bool)

theorem mem_restrict {rs : Rooms} {s : Room} :
    s ∈ (rs.restrict keep).rooms ↔
      ∃ r ∈ rs.rooms, r.members.filter (keep r.channel) ≠ [] ∧
        s = { r with members := r.members.filter (keep r.channel) } := by
  simp only [restrict, List.mem_filterMap]
  constructor
  · rintro ⟨r, hr, hs⟩
    split at hs
    next => cases hs
    next hne =>
      cases hs
      exact ⟨r, hr, hne, rfl⟩
  · rintro ⟨r, hr, hne, rfl⟩
    refine ⟨r, hr, ?_⟩
    split
    next hnil => exact absurd hnil hne
    next => rfl

theorem restrict_cons (r : Room) (rest : List Room) :
    restrict keep ⟨r :: rest⟩ =
      if r.members.filter (keep r.channel) = [] then restrict keep ⟨rest⟩
      else ⟨{ r with members := r.members.filter (keep r.channel) } ::
        (restrict keep ⟨rest⟩).rooms⟩ := by
  simp only [restrict, List.filterMap_cons]
  split
  next hnone =>
    split at hnone
    next hnil => rw [if_pos hnil]
    next => cases hnone
  next s hsome =>
    split at hsome
    next => cases hsome
    next hne =>
      cases hsome
      rw [if_neg hne]

theorem channels_restrict_sublist (rs : Rooms) :
    ((rs.restrict keep).rooms.map Room.channel).Sublist (rs.rooms.map Room.channel) := by
  obtain ⟨rooms⟩ := rs
  induction rooms with
  | nil => exact .slnil
  | cons r rest ih =>
    rw [restrict_cons]
    split
    next => exact ih.cons _
    next => exact ih.cons_cons _

theorem members_restrict {rs : Rooms} (hrs : (rs.rooms.map Room.channel).Nodup)
    (channel : ChannelId) :
    (rs.restrict keep).members channel = (rs.members channel).filter (keep channel) := by
  obtain ⟨rooms⟩ := rs
  induction rooms with
  | nil => rfl
  | cons r rest ih =>
    simp only [List.map_cons, List.nodup_cons] at hrs
    have hrest := ih hrs.2
    rw [members_cons, restrict_cons]
    by_cases hnil : r.members.filter (keep r.channel) = []
    · rw [if_pos hnil]
      by_cases heq : r.channel = channel
      · subst heq
        rw [if_pos rfl, hnil, hrest, members_eq_nil hrs.1, List.filter_nil]
      · rw [if_neg heq, hrest]
    · rw [if_neg hnil, members_cons]
      by_cases heq : r.channel = channel
      · subst heq
        rw [if_pos rfl, if_pos rfl]
      · rw [if_neg heq, if_neg heq]
        exact hrest

theorem Valid.restrict {rs : Rooms} (hrs : rs.Valid) : (rs.restrict keep).Valid where
  channels_nodup := hrs.channels_nodup.sublist (channels_restrict_sublist keep rs)
  inhabited := by
    intro s hs
    obtain ⟨r, _, hne, rfl⟩ := (mem_restrict keep).mp hs
    exact hne
  ids_nodup := by
    intro s hs
    obtain ⟨r, hr, _, rfl⟩ := (mem_restrict keep).mp hs
    exact (hrs.ids_nodup r hr).sublist (List.filter_sublist.map _)

theorem mem_members_restrict {rs : Rooms} (hrs : rs.Valid) {channel : ChannelId} {p : Peer} :
    p ∈ (rs.restrict keep).members channel ↔
      p ∈ rs.members channel ∧ keep channel p = true := by
  rw [members_restrict keep hrs.channels_nodup, List.mem_filter]

variable {keep}

/-- Only what is kept of actual members counts. -/
theorem restrict_congr {rs : Rooms} {keep' : ChannelId → Peer → Bool}
    (heq : ∀ r ∈ rs.rooms, ∀ p ∈ r.members, keep r.channel p = keep' r.channel p) :
    rs.restrict keep = rs.restrict keep' := by
  simp only [Rooms.restrict]
  congr 1
  apply List.filterMap_congr
  intro r hr
  rw [List.filter_congr fun p hp => heq r hr p hp]

theorem restrict_restrict (rs : Rooms) (keep' : ChannelId → Peer → Bool) :
    (rs.restrict keep).restrict keep' =
      rs.restrict fun channel p => keep channel p && keep' channel p := by
  obtain ⟨rooms⟩ := rs
  induction rooms with
  | nil => rfl
  | cons r rest ih =>
    rw [restrict_cons, restrict_cons]
    by_cases hnil : r.members.filter (keep r.channel) = []
    · have hboth : r.members.filter
          (fun p => keep r.channel p && keep' r.channel p) = [] := by
        rw [List.filter_eq_nil_iff] at hnil ⊢
        intro p hp hkept
        simp only [Bool.and_eq_true] at hkept
        exact hnil p hp hkept.1
      rw [if_pos hnil, if_pos hboth, ih]
    · rw [if_neg hnil, restrict_cons, List.filter_filter]
      simp only [Bool.and_comm]
      rw [ih]

/-- Rooms that lose nobody stay as they are. -/
theorem restrict_eq_self {rs : Rooms} (hrs : ∀ r ∈ rs.rooms, r.members ≠ [])
    (hkeep : ∀ r ∈ rs.rooms, ∀ p ∈ r.members, keep r.channel p = true) :
    rs.restrict keep = rs := by
  obtain ⟨rooms⟩ := rs
  induction rooms with
  | nil => rfl
  | cons r rest ih =>
    have hall : r.members.filter (keep r.channel) = r.members :=
      List.filter_eq_self.mpr (hkeep r List.mem_cons_self)
    have hrest := ih (fun s hs => hrs s (List.mem_cons_of_mem r hs))
      fun s hs => hkeep s (List.mem_cons_of_mem r hs)
    rw [restrict_cons, hall, if_neg (hrs r List.mem_cons_self), hrest]

/-- One who is kept everywhere stays in the same rooms. -/
theorem roomsOf_restrict {rs : Rooms} {p : Peer} (hp : ∀ channel, keep channel p = true) :
    (rs.restrict keep).roomsOf p = rs.roomsOf p := by
  rw [roomsOf, roomsOf]
  congr 1
  obtain ⟨rooms⟩ := rs
  induction rooms with
  | nil => rfl
  | cons r rest ih =>
    rw [restrict_cons]
    by_cases hmem : p ∈ r.members
    · have hkept : p ∈ r.members.filter (keep r.channel) :=
        List.mem_filter.mpr ⟨hmem, hp r.channel⟩
      rw [if_neg (List.ne_nil_of_mem hkept)]
      simp only [List.filter_cons, hmem, hkept, decide_true, if_true, List.map_cons, ih]
    · have hout : p ∉ r.members.filter (keep r.channel) :=
        fun hkept => hmem (List.mem_filter.mp hkept).1
      split
      next => simp only [List.filter_cons, hmem, decide_false, Bool.false_eq_true, if_false, ih]
      next =>
        simp only [List.filter_cons, hmem, hout, decide_false, Bool.false_eq_true, if_false, ih]

end Restrict

section Leave

variable {rs : Rooms} {p : Peer}

/-- Nobody else in the rooms goes by the name of `p`. -/
def Distinguishes (rs : Rooms) (p : Peer) : Prop :=
  ∀ r ∈ rs.rooms, ∀ q ∈ r.members, q.id = p.id → q = p

theorem Distinguishes.eq_of_mem (hp : rs.Distinguishes p) {channel : ChannelId} {q : Peer}
    (hq : q ∈ rs.members channel) (hid : q.id = p.id) : q = p := by
  obtain ⟨r, hr, _, hmem⟩ := exists_room_of_mem_members hq
  exact hp r hr q hmem hid

theorem leaveAll_rooms (rs : Rooms) (id : ConnectionId) :
    (rs.leaveAll id).1 = rs.restrict fun _ q => q.id != id := rfl

theorem leaveAll_channels (hp : rs.Distinguishes p) : (rs.leaveAll p.id).2 = rs.roomsOf p := by
  simp only [leaveAll, roomsOf]
  congr 2
  apply List.filter_congr
  intro r hr
  rw [Bool.eq_iff_iff, List.any_eq_true, decide_eq_true_eq]
  constructor
  · rintro ⟨q, hq, hid⟩
    exact hp r hr q hq (by simpa using hid) ▸ hq
  · exact fun hmem => ⟨p, hmem, by simp⟩

theorem leaveAll_channels_nodup (hrs : rs.Valid) (id : ConnectionId) :
    (rs.leaveAll id).2.Nodup :=
  (sortNames_perm _).nodup_iff.mpr
    (hrs.channels_nodup.sublist (List.filter_sublist.map Room.channel))

theorem leave_rooms (hrs : rs.Valid) (channel : ChannelId) (id : ConnectionId) :
    (rs.leave channel id).1 = rs.restrict fun c q => c != channel || q.id != id := by
  simp only [leave, restrict]
  congr 1
  apply List.filterMap_congr
  intro r hr
  by_cases heq : r.channel = channel
  · have hkeep : (fun q : Peer => r.channel != channel || q.id != id) = fun q => q.id != id := by
      funext q
      rw [heq, bne_self_eq_false, Bool.false_or]
    exact (if_pos (beq_iff_eq.mpr heq)).trans (hkeep ▸ rfl)
  · have hne : (r.channel != channel) = true := by simpa using heq
    have hbeq : (r.channel == channel) = false := by simpa using heq
    simp only [hne, hbeq, Bool.true_or, List.filter_true, Bool.false_eq_true, if_false]
    split
    next hnil => exact absurd hnil (hrs.inhabited r hr)
    next => rfl

theorem Valid.leave (hrs : rs.Valid) (channel : ChannelId) (id : ConnectionId) :
    (rs.leave channel id).1.Valid := by
  rw [leave_rooms hrs]
  exact hrs.restrict _

/-- Whoever goes by the name is out of the room, and all others are where they were. -/
theorem mem_members_leave (hrs : rs.Valid) {channel room : ChannelId} {id : ConnectionId} :
    p ∈ (rs.leave room id).1.members channel ↔
      p ∈ rs.members channel ∧ (channel ≠ room ∨ p.id ≠ id) := by
  rw [leave_rooms hrs, mem_members_restrict _ hrs, Bool.or_eq_true, bne_iff_ne, bne_iff_ne]

theorem contains_iff (hp : rs.Distinguishes p) (channel : ChannelId) :
    rs.contains channel p.id = true ↔ p ∈ rs.members channel := by
  rw [contains, List.any_eq_true]
  constructor
  · rintro ⟨q, hq, hid⟩
    exact hp.eq_of_mem hq (by simpa using hid) ▸ hq
  · exact fun hmem => ⟨p, hmem, by simp⟩

end Leave

end Rooms

section Insert

theorem mem_insertPeer {p q : Peer} {ps : List Peer} :
    q ∈ insertPeer p ps ↔ q = p ∨ q ∈ ps ∧ q.id ≠ p.id := by
  rw [insertPeer]
  split
  next hany =>
    obtain ⟨m, hm, hid⟩ := List.any_eq_true.mp hany
    rw [List.mem_map]
    constructor
    · rintro ⟨a, ha, rfl⟩
      by_cases heq : a.id = p.id
      · exact Or.inl (by simp [heq])
      · exact Or.inr (by simp [heq, ha])
    · rintro (rfl | ⟨hq, hne⟩)
      · exact ⟨m, hm, by simp [hid]⟩
      · exact ⟨q, hq, by simp [hne]⟩
  next hnone =>
    simp only [List.any_eq_true, beq_iff_eq, not_exists, not_and] at hnone
    rw [List.mem_append, List.mem_singleton]
    constructor
    · rintro (hq | rfl)
      · exact Or.inr ⟨hq, hnone q hq⟩
      · exact Or.inl rfl
    · rintro (rfl | ⟨hq, _⟩)
      · exact Or.inr rfl
      · exact Or.inl hq

theorem ids_insertPeer_nodup {p : Peer} {ps : List Peer} (hps : (ps.map Peer.id).Nodup) :
    ((insertPeer p ps).map Peer.id).Nodup := by
  rw [insertPeer]
  split
  next =>
    have hids : (ps.map fun q => if (q.id == p.id) = true then p else q).map Peer.id =
        ps.map Peer.id := by
      rw [List.map_map]
      apply List.map_congr_left
      intro q _
      by_cases heq : q.id = p.id
      · simp [heq]
      · simp [heq]
    rw [hids]
    exact hps
  next hnone =>
    simp only [List.any_eq_true, beq_iff_eq, not_exists, not_and] at hnone
    rw [List.map_append, List.nodup_append]
    refine ⟨hps, List.nodup_singleton _, ?_⟩
    intro i hi j hj heq
    obtain ⟨q, hq, rfl⟩ := List.mem_map.mp hi
    exact hnone q hq (heq.trans (List.mem_singleton.mp hj))

namespace Rooms

theorem channels_insert (channel : ChannelId) (p : Peer) (rooms : List Room) :
    (insert channel p rooms).map Room.channel =
      if channel ∈ rooms.map Room.channel then rooms.map Room.channel
      else rooms.map Room.channel ++ [channel] := by
  induction rooms with
  | nil => rfl
  | cons r rest ih =>
    rw [insert, List.map_cons]
    split
    next heq =>
      rw [beq_iff_eq] at heq
      rw [if_pos (heq ▸ List.mem_cons_self)]
      rfl
    next hne =>
      rw [beq_iff_eq] at hne
      have hmem : channel ∈ r.channel :: rest.map Room.channel ↔
          channel ∈ rest.map Room.channel := List.mem_cons.trans (or_iff_right hne)
      simp only [List.map_cons, ih, hmem]
      split
      next => rfl
      next => rfl

theorem mem_insert {channel : ChannelId} {p : Peer} {rooms : List Room} {s : Room}
    (hs : s ∈ insert channel p rooms) :
    s ∈ rooms ∨ s = ⟨channel, [p]⟩ ∨
      ∃ r ∈ rooms, r.channel = channel ∧ s = ⟨channel, insertPeer p r.members⟩ := by
  induction rooms with
  | nil => exact Or.inr (Or.inl (List.mem_singleton.mp hs))
  | cons r rest ih =>
    rw [insert] at hs
    split at hs
    next heq =>
      rw [beq_iff_eq] at heq
      rcases List.mem_cons.mp hs with rfl | hrest
      · exact Or.inr (Or.inr ⟨r, List.mem_cons_self, heq.symm, by rw [heq]⟩)
      · exact Or.inl (List.mem_cons_of_mem r hrest)
    next =>
      rcases List.mem_cons.mp hs with rfl | hrest
      · exact Or.inl List.mem_cons_self
      · rcases ih hrest with hold | hnew | ⟨t, ht, hsame⟩
        · exact Or.inl (List.mem_cons_of_mem r hold)
        · exact Or.inr (Or.inl hnew)
        · exact Or.inr (Or.inr ⟨t, List.mem_cons_of_mem r ht, hsame⟩)

theorem Valid.insert {rs : Rooms} (hrs : rs.Valid) (channel : ChannelId) (p : Peer) :
    (⟨insert channel p rs.rooms⟩ : Rooms).Valid where
  channels_nodup := by
    rw [channels_insert]
    split
    next => exact hrs.channels_nodup
    next hout =>
      rw [List.nodup_append]
      refine ⟨hrs.channels_nodup, List.nodup_singleton _, fun c hc d hd heq => hout ?_⟩
      rw [← List.mem_singleton.mp hd, ← heq]
      exact hc
  inhabited := by
    intro s hs
    rcases mem_insert hs with hold | rfl | ⟨r, _, _, rfl⟩
    · exact hrs.inhabited s hold
    · exact List.cons_ne_nil p []
    · exact List.ne_nil_of_mem (mem_insertPeer.mpr (Or.inl rfl))
  ids_nodup := by
    intro s hs
    rcases mem_insert hs with hold | rfl | ⟨r, hr, _, rfl⟩
    · exact hrs.ids_nodup s hold
    · exact List.nodup_singleton _
    · exact ids_insertPeer_nodup (hrs.ids_nodup r hr)

theorem members_insert (rooms : List Room) (channel c : ChannelId) (p : Peer) :
    members ⟨insert channel p rooms⟩ c =
      if c = channel then insertPeer p (members ⟨rooms⟩ c) else members ⟨rooms⟩ c := by
  induction rooms with
  | nil =>
    rw [insert, members_cons]
    by_cases heq : c = channel
    · rw [if_pos heq.symm, if_pos heq]
      rfl
    · rw [if_neg (Ne.symm heq), if_neg heq]
  | cons r rest ih =>
    rw [insert]
    split
    next hsame =>
      rw [beq_iff_eq] at hsame
      rw [members_cons, members_cons, ← hsame]
      by_cases heq : c = channel
      · rw [if_pos heq.symm, if_pos heq, if_pos heq.symm]
      · rw [if_neg (Ne.symm heq), if_neg heq, if_neg (Ne.symm heq)]
    next hne =>
      rw [members_cons, members_cons]
      by_cases heq : r.channel = c
      · have hother : c ≠ channel := fun h => hne (beq_iff_eq.mpr (h.symm.trans heq.symm))
        rw [if_pos heq, if_neg hother, if_pos heq]
      · rw [if_neg heq, if_neg heq, ih]

/-- Putting a connection into a room changes nothing for anyone else, there or elsewhere. -/
theorem mem_members_insert {rs : Rooms} {channel c : ChannelId} {p q : Peer} :
    q ∈ members ⟨insert channel p rs.rooms⟩ c ↔
      c = channel ∧ q = p ∨ q ∈ rs.members c ∧ (c = channel → q.id ≠ p.id) := by
  rw [members_insert]
  by_cases heq : c = channel
  · rw [if_pos heq, mem_insertPeer]
    simp only [heq, true_and, forall_const]
  · rw [if_neg heq]
    simp only [heq, false_and, false_or, false_implies, and_true]

end Rooms

end Insert

end ChatHub
