import ChatHub.Proofs.Hub.Membership
/-!
The rooms as nothing but a set of places that are taken, each a room and a connection in it.
Joining puts a place in, leaving takes places out, and all that can be asked of the rooms is read
off the set, in whatever order they and their members are kept.
-/

namespace ChatHub

/-- The places that are taken: rooms, each with a connection in it. -/
abbrev Occupancy := Finset (ChannelId × Peer)

namespace Occupancy

/-- The rooms that somebody is in. -/
def channels (o : Occupancy) : Finset ChannelId := o.image Prod.fst

/-- The rooms that a connection is in. -/
def channelsOf (o : Occupancy) (p : Peer) : Finset ChannelId :=
  {s ∈ o | s.2 = p}.image Prod.fst

/-- The users with a connection in a room. -/
def users (o : Occupancy) (channel : ChannelId) : Finset UserId :=
  {s ∈ o | s.1 = channel}.image fun s => s.2.user

variable {o : Occupancy}

theorem mem_channels {channel : ChannelId} :
    channel ∈ o.channels ↔ ∃ p, (channel, p) ∈ o := by
  simp [channels]

theorem mem_channelsOf {channel : ChannelId} {p : Peer} :
    channel ∈ o.channelsOf p ↔ (channel, p) ∈ o := by
  simp [channelsOf]

theorem mem_users {channel : ChannelId} {user : UserId} :
    user ∈ o.users channel ↔ ∃ p, (channel, p) ∈ o ∧ p.user = user := by
  simp only [users, Finset.mem_image, Finset.mem_filter, Prod.exists]
  constructor
  · rintro ⟨c, p, ⟨hmem, rfl⟩, huser⟩
    exact ⟨p, hmem, huser⟩
  · rintro ⟨p, hmem, huser⟩
    exact ⟨channel, p, ⟨hmem, rfl⟩, huser⟩

end Occupancy

namespace Rooms

/-- The places that are taken in the rooms. -/
def occupancy (rs : Rooms) : Occupancy :=
  (rs.rooms.flatMap fun r => r.members.map (r.channel, ·)).toFinset

section Read

variable {rs : Rooms} (hrs : rs.Valid)

include hrs

theorem Valid.mem_occupancy {channel : ChannelId} {p : Peer} :
    (channel, p) ∈ rs.occupancy ↔ p ∈ rs.members channel := by
  simp only [occupancy, List.mem_toFinset, List.mem_flatMap, List.mem_map, Prod.mk.injEq]
  constructor
  · rintro ⟨r, hr, q, hq, rfl, rfl⟩
    rwa [members_of_mem hrs.channels_nodup hr]
  · intro hp
    obtain ⟨r, hr, rfl, hmem⟩ := exists_room_of_mem_members hp
    exact ⟨r, hr, p, hmem, rfl, rfl⟩

theorem Valid.contains_iff_occupancy {channel : ChannelId} {id : ConnectionId} :
    rs.contains channel id = true ↔ ∃ p, (channel, p) ∈ rs.occupancy ∧ p.id = id := by
  simp only [contains, List.any_eq_true, beq_iff_eq, hrs.mem_occupancy]

theorem Valid.any_user_iff {channel : ChannelId} {user : UserId} :
    (rs.members channel).any (·.user == user) = true ↔ user ∈ rs.occupancy.users channel := by
  simp only [List.any_eq_true, beq_iff_eq, Occupancy.mem_users, hrs.mem_occupancy]

theorem Valid.areCoMembers_iff {channel : ChannelId} {a b : UserId} :
    rs.areCoMembers channel a b = true ↔
      a ∈ rs.occupancy.users channel ∧ b ∈ rs.occupancy.users channel := by
  rw [areCoMembers, Bool.and_eq_true, hrs.any_user_iff, hrs.any_user_iff]

theorem Valid.sortNames_channels :
    sortNames (rs.rooms.map Room.channel) = rs.occupancy.channels.sort (· ≤ ·) := by
  apply sortNames_eq_sort hrs.channels_nodup
  intro channel
  simp only [Occupancy.mem_channels, hrs.mem_occupancy]
  constructor
  · intro hmem
    obtain ⟨r, hr, rfl⟩ := List.mem_map.mp hmem
    obtain ⟨p, hp⟩ := List.exists_mem_of_ne_nil r.members (hrs.inhabited r hr)
    exact ⟨p, (members_of_mem hrs.channels_nodup hr).symm ▸ hp⟩
  · rintro ⟨p, hp⟩
    obtain ⟨r, hr, rfl, _⟩ := exists_room_of_mem_members hp
    exact List.mem_map_of_mem hr

theorem Valid.count_eq_card : rs.count = rs.occupancy.channels.card := by
  rw [count, ← List.length_map Room.channel, ← (sortNames_perm _).length_eq,
    hrs.sortNames_channels, Finset.length_sort]

theorem Valid.users_eq_sort {r : Room} (hr : r ∈ rs.rooms) :
    r.users = (rs.occupancy.users r.channel).sort (· ≤ ·) := by
  apply distinctNames_eq_sort
  intro user
  simp only [List.mem_map, Occupancy.mem_users, hrs.mem_occupancy,
    members_of_mem hrs.channels_nodup hr]

theorem Valid.snapshot_eq : rs.snapshot =
    (rs.occupancy.channels.sort (· ≤ ·)).map fun channel =>
      (channel, (rs.occupancy.users channel).sort (· ≤ ·)) := by
  have hrooms : (rs.rooms.map fun r => (r.channel, r.users)) =
      (rs.rooms.map Room.channel).map fun channel =>
        (channel, (rs.occupancy.users channel).sort (· ≤ ·)) := by
    rw [List.map_map]
    exact List.map_congr_left fun r hr => Prod.ext rfl (hrs.users_eq_sort hr)
  rw [snapshot, hrooms, sortByName_map fun _ => rfl, hrs.sortNames_channels]

theorem Valid.roomsOf_eq_sort (p : Peer) :
    rs.roomsOf p = (rs.occupancy.channelsOf p).sort (· ≤ ·) := by
  apply eq_sort_of_increasing
  · exact sortNames_increasing (hrs.channels_nodup.sublist (List.filter_sublist.map _))
  · intro channel
    rw [mem_roomsOf hrs.channels_nodup, Occupancy.mem_channelsOf, hrs.mem_occupancy]

/-- The users whom one who joins a room is told of. -/
theorem Valid.others_eq_sort {p : Peer} (hp : rs.Distinguishes p) (channel : ChannelId) :
    distinctNames (((rs.members channel).filter fun m =>
        m.id != p.id && m.user != p.user).map (·.user)) =
      ((rs.occupancy.users channel).erase p.user).sort (· ≤ ·) := by
  apply distinctNames_eq_sort
  intro user
  simp only [List.mem_map, List.mem_filter, Bool.and_eq_true, bne_iff_ne,
    Finset.mem_erase, Occupancy.mem_users, hrs.mem_occupancy]
  constructor
  · rintro ⟨m, ⟨hm, _, hne⟩, rfl⟩
    exact ⟨hne, m, hm, rfl⟩
  · rintro ⟨hne, m, hm, rfl⟩
    exact ⟨m, ⟨hm, fun hid => hne (congrArg Peer.user (hp.eq_of_mem hm hid)), hne⟩, rfl⟩

end Read

section Write

variable {rs : Rooms} (hrs : rs.Valid)

include hrs

theorem Valid.occupancy_enter {p : Peer} (hp : rs.Distinguishes p) (channel : ChannelId) :
    occupancy ⟨Rooms.insert channel p rs.rooms⟩ = {(channel, p)} ∪ rs.occupancy := by
  ext ⟨c, q⟩
  rw [(hrs.insert channel p).mem_occupancy, mem_members_insert, Finset.mem_union,
    Finset.mem_singleton, Prod.mk.injEq, hrs.mem_occupancy]
  by_cases hsame : c = channel ∧ q = p
  · exact iff_of_true (Or.inl hsame) (Or.inl hsame)
  · rw [or_iff_right hsame, or_iff_right hsame]
    exact and_iff_left_of_imp fun hq hc hid => hsame ⟨hc, hp.eq_of_mem hq hid⟩

theorem Valid.occupancy_restrict (keep : ChannelId → Peer → Bool) :
    (rs.restrict keep).occupancy = {s ∈ rs.occupancy | keep s.1 s.2 = true} := by
  ext ⟨c, q⟩
  rw [(hrs.restrict keep).mem_occupancy, mem_members_restrict keep hrs, Finset.mem_filter,
    hrs.mem_occupancy]

theorem Valid.occupancy_leave {p : Peer} (hp : rs.Distinguishes p) (channel : ChannelId) :
    (rs.leave channel p.id).1.occupancy = rs.occupancy.erase (channel, p) := by
  ext ⟨c, q⟩
  rw [(hrs.leave channel p.id).mem_occupancy, mem_members_leave hrs, Finset.mem_erase, and_comm,
    hrs.mem_occupancy]
  apply and_congr_left
  intro hq
  have hid : q.id = p.id ↔ q = p := ⟨hp.eq_of_mem hq, congrArg Peer.id⟩
  rw [ne_eq, ne_eq, ne_eq, hid, Prod.mk.injEq, not_and_or]

theorem Valid.occupancy_leaveAll {p : Peer} (hp : rs.Distinguishes p) :
    (rs.leaveAll p.id).1.occupancy = {s ∈ rs.occupancy | s.2 ≠ p} := by
  rw [leaveAll_rooms, hrs.occupancy_restrict]
  apply Finset.filter_congr
  rintro ⟨c, q⟩ hq
  have hid : q.id = p.id ↔ q = p := ⟨hp.eq_of_mem (hrs.mem_occupancy.mp hq), congrArg Peer.id⟩
  simp only [bne_iff_ne, ne_eq, hid]

end Write

/-- The same rooms in another order, and the members of each in another. -/
def Rearranged (rs rs' : Rooms) : Prop :=
  ∃ order : Room → List Peer, (∀ r ∈ rs.rooms, (order r).Perm r.members) ∧
    rs'.rooms.Perm (rs.rooms.map fun r => { r with members := order r })

section Rearranged

variable {rs rs' : Rooms}

theorem Rearranged.exists_room (h : rs.Rearranged rs') {s : Room} (hs : s ∈ rs'.rooms) :
    ∃ r ∈ rs.rooms, s.channel = r.channel ∧ s.members.Perm r.members := by
  obtain ⟨order, horder, hrooms⟩ := h
  obtain ⟨r, hr, rfl⟩ := List.mem_map.mp (hrooms.mem_iff.mp hs)
  exact ⟨r, hr, rfl, horder r hr⟩

theorem Rearranged.channels (h : rs.Rearranged rs') :
    (rs'.rooms.map Room.channel).Perm (rs.rooms.map Room.channel) := by
  obtain ⟨order, _, hrooms⟩ := h
  have hchannels := hrooms.map Room.channel
  rwa [List.map_map] at hchannels

theorem Rearranged.valid (h : rs.Rearranged rs') (hrs : rs.Valid) : rs'.Valid where
  channels_nodup := h.channels.nodup_iff.mpr hrs.channels_nodup
  inhabited := by
    intro s hs
    obtain ⟨r, hr, _, hperm⟩ := h.exists_room hs
    exact fun hnil => hrs.inhabited r hr (List.nil_perm.mp (hnil ▸ hperm))
  ids_nodup := by
    intro s hs
    obtain ⟨r, hr, _, hperm⟩ := h.exists_room hs
    exact (hperm.map Peer.id).nodup_iff.mpr (hrs.ids_nodup r hr)

theorem Rearranged.occupancy_eq (h : rs.Rearranged rs') : rs'.occupancy = rs.occupancy := by
  obtain ⟨order, horder, hrooms⟩ := h
  apply List.toFinset_eq_of_perm
  refine (hrooms.flatMap_right _).trans ?_
  rw [List.flatMap_map]
  exact List.Perm.flatMap_left _ fun r hr => (horder r hr).map _

end Rearranged

/-- What can be done to the rooms, for a connection whose queue is closed or not. -/
inductive Call where
  | join (channel : ChannelId) (p : Peer) (queueClosed : Bool)
  | leave (channel : ChannelId) (p : Peer)
  | leaveAll (p : Peer)
deriving DecidableEq, Repr

/-- What is answered. -/
inductive Answer where
  /-- The other users who were there, unless the connection was turned away. -/
  | others (users : Option (List UserId))
  | wasMember (b : Bool)
  | wasIn (channels : List ChannelId)
deriving DecidableEq, Repr

def Call.peer : Call → Peer
  | join _ p _ => p
  | leave _ p => p
  | leaveAll p => p

def perform (rs : Rooms) : Call → Rooms × Answer
  | .join channel p queueClosed =>
      ((rs.join channel p queueClosed).1, .others (rs.join channel p queueClosed).2)
  | .leave channel p => ((rs.leave channel p.id).1, .wasMember (rs.leave channel p.id).2)
  | .leaveAll p => ((rs.leaveAll p.id).1, .wasIn (rs.leaveAll p.id).2)

/-- Calls with their answers, and the rooms after them.  Between two calls the rooms, and the
members of each, may come to stand in any order. -/
inductive History : List Call → List Answer → Rooms → Prop where
  | start : History [] [] empty
  | call {calls : List Call} {answers : List Answer} {rs : Rooms}
      (before : History calls answers rs) (c : Call) :
      History (calls ++ [c]) (answers ++ [(rs.perform c).2]) (rs.perform c).1
  | rearrange {calls : List Call} {answers : List Answer} {rs rs' : Rooms}
      (before : History calls answers rs) (hsame : rs.Rearranged rs') :
      History calls answers rs'

end Rooms

namespace Occupancy

open Rooms (Call Answer)

/-- What a call does to the set of places, and what it answers. -/
def perform (o : Occupancy) : Call → Occupancy × Answer
  | .join _ _ true => (o, .others none)
  | .join channel p false =>
      ({(channel, p)} ∪ o, .others (some (((o.users channel).erase p.user).sort (· ≤ ·))))
  | .leave channel p => (o.erase (channel, p), .wasMember (decide ((channel, p) ∈ o)))
  | .leaveAll p => ({s ∈ o | s.2 ≠ p}, .wasIn ((o.channelsOf p).sort (· ≤ ·)))

def run (calls : List Call) : Occupancy := calls.foldl (fun o c => (o.perform c).1) ∅

def answers (o : Occupancy) : List Call → List Answer
  | [] => []
  | c :: calls => (o.perform c).2 :: answers (o.perform c).1 calls

theorem run_concat (calls : List Call) (c : Call) :
    run (calls ++ [c]) = ((run calls).perform c).1 :=
  List.foldl_append

theorem answers_concat (calls : List Call) (c : Call) :
    answers ∅ (calls ++ [c]) = answers ∅ calls ++ [((run calls).perform c).2] := by
  have hfrom (o : Occupancy) : answers o (calls ++ [c]) = answers o calls ++
      [((calls.foldl (fun o c => (o.perform c).1) o).perform c).2] := by
    induction calls generalizing o with
    | nil => rfl
    | cons d calls ih => rw [List.cons_append, answers, ih]; rfl
  exact hfrom ∅

/-- Only connections that calls were made for have a place. -/
theorem exists_call_of_mem_run {calls : List Call} {c : ChannelId} {q : Peer}
    (hq : (c, q) ∈ run calls) : ∃ call ∈ calls, call.peer = q := by
  induction calls using List.reverseRecOn with
  | nil => exact absurd hq (Finset.notMem_empty _)
  | append_singleton calls call ih =>
    have hcases : (c, q) ∈ run calls ∨ q = call.peer := by
      rw [run_concat] at hq
      cases call with
      | join channel p closed =>
        cases closed with
        | true => exact Or.inl hq
        | false =>
          rcases Finset.mem_union.mp hq with hnew | hold
          · exact Or.inr (congrArg Prod.snd (Finset.mem_singleton.mp hnew))
          · exact Or.inl hold
      | leave channel p => exact Or.inl (Finset.mem_of_mem_erase hq)
      | leaveAll p => exact Or.inl (Finset.mem_filter.mp hq).1
    rcases hcases with hold | hnew
    · obtain ⟨d, hd, hpeer⟩ := ih hold
      exact ⟨d, List.mem_append_left _ hd, hpeer⟩
    · exact ⟨call, List.mem_append_right _ List.mem_cons_self, hnew.symm⟩

end Occupancy

namespace Rooms

/-- One call does to the rooms what it does to the set of places, and has the same answer. -/
theorem Valid.perform {rs : Rooms} (hrs : rs.Valid) {c : Call} (hc : rs.Distinguishes c.peer) :
    (rs.perform c).1.Valid ∧
      ((rs.perform c).1.occupancy, (rs.perform c).2) = rs.occupancy.perform c := by
  cases c with
  | join channel p closed =>
    cases closed with
    | true => exact ⟨hrs, rfl⟩
    | false =>
      refine ⟨hrs.insert channel p, Prod.ext (hrs.occupancy_enter hc channel) ?_⟩
      exact congrArg (fun users => Answer.others (some users)) (hrs.others_eq_sort hc channel)
  | leave channel p =>
    have hrooms : (rs.leave channel p.id).1.Valid := hrs.leave channel p.id
    have hmember : rs.contains channel p.id = decide ((channel, p) ∈ rs.occupancy) := by
      rw [Bool.eq_iff_iff, contains_iff (p := p) hc, decide_eq_true_eq, hrs.mem_occupancy]
    exact ⟨hrooms, Prod.ext (hrs.occupancy_leave hc channel) (congrArg Answer.wasMember hmember)⟩
  | leaveAll p =>
    have hrooms : (rs.leaveAll p.id).1.Valid := leaveAll_rooms rs p.id ▸ hrs.restrict _
    have hchannels := (leaveAll_channels (p := p) hc).trans (hrs.roomsOf_eq_sort p)
    exact ⟨hrooms, Prod.ext (hrs.occupancy_leaveAll hc) (congrArg Answer.wasIn hchannels)⟩

section History

variable {calls : List Call} {answers : List Answer} {rs : Rooms}

theorem History.valid_and_refines (hh : History calls answers rs)
    (hids : ∀ c ∈ calls, ∀ d ∈ calls, c.peer.id = d.peer.id → c.peer = d.peer) :
    rs.Valid ∧ rs.occupancy = Occupancy.run calls ∧ answers = Occupancy.answers ∅ calls := by
  induction hh with
  | start => exact ⟨valid_empty, rfl, rfl⟩
  | @call calls answers rs before c ih =>
    obtain ⟨hvalid, hrun, hanswers⟩ := ih fun d hd e he =>
      hids d (List.mem_append_left _ hd) e (List.mem_append_left _ he)
    have hdistinct : rs.Distinguishes c.peer := by
      intro r hr q hq hid
      have hplace : (r.channel, q) ∈ Occupancy.run calls := by
        rw [← hrun, hvalid.mem_occupancy, members_of_mem hvalid.channels_nodup hr]
        exact hq
      obtain ⟨d, hd, rfl⟩ := Occupancy.exists_call_of_mem_run hplace
      exact hids d (List.mem_append_left _ hd) c
        (List.mem_append_right _ List.mem_cons_self) hid
    obtain ⟨hvalid', hstep⟩ := hvalid.perform hdistinct
    rw [Occupancy.run_concat, Occupancy.answers_concat, ← hrun, ← hstep, hanswers]
    exact ⟨hvalid', rfl, rfl⟩
  | rearrange _ hsame ih =>
    obtain ⟨hvalid, hrun, hanswers⟩ := ih hids
    exact ⟨hsame.valid hvalid, hsame.occupancy_eq.trans hrun, hanswers⟩

/-- Whatever is done to the rooms, they answer as the set of places does, and show what is in it, in
whatever order they and their members are kept. -/
theorem history_refines_occupancy (hh : History calls answers rs)
    (hids : ∀ c ∈ calls, ∀ d ∈ calls, c.peer.id = d.peer.id → c.peer = d.peer) :
    let o := Occupancy.run calls
    answers = Occupancy.answers ∅ calls ∧
      (∀ channel id, rs.contains channel id = true ↔ ∃ p, (channel, p) ∈ o ∧ p.id = id) ∧
      (∀ channel, (rs.members channel).Nodup ∧
        ∀ p, p ∈ rs.members channel ↔ (channel, p) ∈ o) ∧
      (∀ channel a b, rs.areCoMembers channel a b = true ↔
        a ∈ o.users channel ∧ b ∈ o.users channel) ∧
      rs.count = o.channels.card ∧
      rs.snapshot = (o.channels.sort (· ≤ ·)).map fun channel =>
        (channel, (o.users channel).sort (· ≤ ·)) := by
  obtain ⟨hvalid, hrun, hanswers⟩ := hh.valid_and_refines hids
  rw [← hrun]
  exact ⟨hanswers, fun _ _ => hvalid.contains_iff_occupancy,
    fun channel => ⟨hvalid.members_nodup channel, fun _ => hvalid.mem_occupancy.symm⟩,
    fun _ _ _ => hvalid.areCoMembers_iff, hvalid.count_eq_card, hvalid.snapshot_eq⟩

/-- Ann is in the hall twice and once in the attic, and the two rooms change places before Bob hangs
up; the members of the hall then do. -/
theorem hall_after_bob :
    let ann : Peer := ⟨0, .fresh 0, "ann"⟩
    let bob : Peer := ⟨1, .fresh 1, "bob"⟩
    let desk : Peer := ⟨2, .fresh 2, "ann"⟩
    ∃ answers rs, History
      [.join "attic" ann false, .join "hall" ann false, .join "hall" desk false,
        .join "hall" bob false, .join "attic" bob false, .leaveAll bob] answers rs ∧
        answers = [.others (some []), .others (some []), .others (some []),
          .others (some ["ann"]), .others (some ["ann"]), .wasIn ["attic", "hall"]] ∧
        rs.rooms = [⟨"hall", [desk, ann]⟩, ⟨"attic", [ann]⟩] ∧
        rs.snapshot = [("attic", ["ann"]), ("hall", ["ann"])] ∧
        ∀ id, rs.contains "hall" id = true ↔ id = .fresh 0 ∨ id = .fresh 2 := by
  intro ann bob desk
  let calls : List Call :=
    [.join "attic" ann false, .join "hall" ann false, .join "hall" desk false,
      .join "hall" bob false, .join "attic" bob false, .leaveAll bob]
  have hturned (rs : Rooms) : rs.Rearranged ⟨rs.rooms.reverse⟩ :=
    ⟨Room.members, fun _ _ => .refl _, (List.map_id rs.rooms).symm ▸ rs.rooms.reverse_perm⟩
  have hmixed (rs : Rooms) :
      rs.Rearranged ⟨rs.rooms.map fun r => { r with members := r.members.reverse }⟩ :=
    ⟨fun r => r.members.reverse, fun r _ => r.members.reverse_perm, .refl _⟩
  have hh : History calls _ _ := ((((((((History.start.call (.join "attic" ann false)).call
    (.join "hall" ann false)).call (.join "hall" desk false)).call
      (.join "hall" bob false)).call (.join "attic" bob false)).rearrange (hturned _)).call
        (.leaveAll bob)).rearrange (hmixed _))
  have hids : ∀ c ∈ calls, ∀ d ∈ calls, c.peer.id = d.peer.id → c.peer = d.peer := by decide
  obtain ⟨_, hcontains, _⟩ := history_refines_occupancy hh hids
  have hrun : Occupancy.run calls = {("attic", ann), ("hall", ann), ("hall", desk)} := by decide
  rw [hrun] at hcontains
  refine ⟨_, _, hh, by decide +kernel, by decide +kernel, by decide +kernel, fun id => ?_⟩
  refine (hcontains "hall" id).trans ?_
  simp [ann, desk, eq_comm]

end History

end Rooms

end ChatHub
