import ChatHub.Proofs.Hub.Telling
/-!
The loop that removes those who refuse.  Each round makes deliveries, which may put more on the very
list that the loop works through, so the list by itself says nothing of an end.  But whoever is put
there was open until that moment and never is again, and so the rounds are no more than the entries
at the start and the connections that were open then, whatever the state.
-/

namespace ChatHub.Hub

/-- A delivery: to whom a frame goes, and the hub that it finds. -/
structure Posting where
  hub : Hub
  frame : Frame
  targets : List Peer

namespace Posting

/-- The hub when all have been offered the frame. -/
def offered (d : Posting) : Hub := (push d.frame d.targets d.hub).hub

/-- Those that it puts on the list. -/
def entries (d : Posting) : List Peer := (push d.frame d.targets d.hub).dead

def after (d : Posting) : Hub := (deliver d.frame d.targets d.hub).1

end Posting

/-- The deliveries that tell of a user who has left some rooms, two for each room.  Who is told is
settled when it is their turn. -/
def farewellPostings (user : UserId) : List ChannelId → Hub → List Posting
  | [], _ => []
  | channel :: channels, h =>
      let toRoom : Posting := ⟨h, leftFrame channel user, h.rooms.members channel⟩
      let toAll : Posting := ⟨toRoom.after, leftFrame channel user, toRoom.after.registered⟩
      toRoom :: toAll :: farewellPostings user channels toAll.after

/-- What the loop does with an entry: it takes the connection off the hub like anybody else would,
and counts it if it was registered. -/
def turn (p : Peer) (h : Hub) : Hub :=
  let r := h.unregister p
  if r.2 then r.1.count fun n => { n with evicted := n.evicted + 1 } else r.1

/-- A round: who is removed, and the hub when the entry is off the list. -/
structure Round where
  hub : Hub
  removed : Peer

namespace Round

def after (r : Round) : Hub := turn r.removed r.hub

/-- The deliveries of a round, which start when the connection is off the set and out of its
rooms. -/
def deliveries (r : Round) : List Posting :=
  farewellPostings r.removed.user (r.hub.rooms.leaveAll r.removed.id).2 (r.hub.detach r.removed)

def entries (r : Round) : List Peer := r.deliveries.flatMap Posting.entries

end Round

/-- The loop runs through these rounds to its end.  It takes the first entry off the list as long as
there is one. -/
inductive Loop : Hub → List Round → Hub → Prop where
  | done {h : Hub} (hnil : h.pending = []) : Loop h [] h
  | round {h last : Hub} {p : Peer} {rest : List Peer} {rs : List Round}
      (hcons : h.pending = p :: rest) (hloop : Loop (turn p { h with pending := rest }) rs last) :
      Loop h (⟨{ h with pending := rest }, p⟩ :: rs) last

section Draining

variable {h : Hub}

/-- While the loop runs, a delivery leaves those who refuse on the list. -/
theorem deliver_of_draining (hflag : h.draining = true) (f : Frame) (ts : List Peer) :
    deliver f ts h = offer f ts h := by
  have hrecorded : (record (push f ts h)).draining = true := (offer_draining f ts h).trans hflag
  simp only [deliver, offer, drain, hrecorded, if_true, ite_self]

theorem announceLeft_of_draining (hflag : h.draining = true) (user : UserId)
    (channel : ChannelId) :
    announceLeft deliver user channel h = announceLeft offer user channel h := by
  have hkept (f : Frame) (ts : List Peer) : (offer f ts h).1.draining = true :=
    (offer_draining f ts h).trans hflag
  simp only [announceLeft, deliver_of_draining hflag, deliver_of_draining (hkept _ _)]

theorem announceAll_of_draining (hflag : h.draining = true) (user : UserId)
    (channels : List ChannelId) :
    channels.foldl (fun h channel => announceLeft deliver user channel h) h =
      channels.foldl (fun h channel => announceLeft offer user channel h) h := by
  induction channels generalizing h with
  | nil => rfl
  | cons channel channels ih =>
    have hkept : (announceLeft offer user channel h).draining = true := by
      simp only [announceLeft, offer_draining, hflag]
    rw [List.foldl_cons, List.foldl_cons, announceLeft_of_draining hflag, ih hkept]

/-- The loop's own way to remove somebody is the common one. -/
theorem turn_of_draining (hflag : h.draining = true) (p : Peer) : turn p h = evict p h := by
  have hdetached : (h.detach p).draining = true := hflag
  have hremoved : h.unregister p = remove offer p h := by
    rw [unregister, remove_eq, remove_eq, announceAll_of_draining hdetached]
  simp only [turn, evict, hremoved]

end Draining

/-- On the way from `h` to `h'` those in `es`, who were open, have been closed, each of them
once. -/
structure Closes (es : List Peer) (h h' : Hub) : Prop where
  grows : Grows (fun _ _ => True) h h'
  nodup : (es.map Peer.handle).Nodup
  opened : ∀ p ∈ es, (h.connection p).isOpen = true
  closed : ∀ p ∈ es, (h'.connection p).isOpen = false

/-- And they have been put on the list, which is otherwise as it was. -/
structure Lists (es : List Peer) (h h' : Hub) : Prop extends Closes es h h' where
  pending : h'.pending = es.reverse ++ h.pending
  draining : h'.draining = h.draining

section Lists

variable {h h' h'' : Hub} {es es' : List Peer}

theorem Closes.of_grows (hg : Grows (fun _ _ => True) h h') : Closes [] h h' :=
  ⟨hg, List.nodup_nil, by simp, by simp⟩

/-- Nobody is closed twice, since nobody opens again. -/
theorem Closes.trans (hfirst : Closes es h h') (hnext : Closes es' h' h'') :
    Closes (es ++ es') h h'' where
  grows := hfirst.grows.trans hnext.grows
  nodup := by
    rw [List.map_append, List.nodup_append]
    refine ⟨hfirst.nodup, hnext.nodup, ?_⟩
    rintro i hi j hj rfl
    obtain ⟨p, hp, rfl⟩ := List.mem_map.mp hi
    obtain ⟨q, hq, heq⟩ := List.mem_map.mp hj
    have hopen := hnext.opened q hq
    rw [connection_eq_of_handle heq, hfirst.closed p hp] at hopen
    cases hopen
  opened := by
    intro p hp
    rcases List.mem_append.mp hp with hold | hnew
    · exact hfirst.opened p hold
    · exact (hfirst.grows.connection p).isOpen (hnext.opened p hnew)
  closed := by
    intro p hp
    rcases List.mem_append.mp hp with hold | hnew
    · exact (hnext.grows.connection p).not_open (hfirst.closed p hold)
    · exact hnext.closed p hnew

theorem Lists.of_grows (hg : Grows (fun _ _ => True) h h') (hpending : h'.pending = h.pending)
    (hdraining : h'.draining = h.draining) : Lists [] h h' :=
  ⟨.of_grows hg, hpending, hdraining⟩

theorem Lists.trans (hfirst : Lists es h h') (hnext : Lists es' h' h'') :
    Lists (es ++ es') h h'' where
  toCloses := hfirst.toCloses.trans hnext.toCloses
  pending := by rw [hnext.pending, hfirst.pending, List.reverse_append, List.append_assoc]
  draining := hnext.draining.trans hfirst.draining

theorem Lists.pending_perm (hl : Lists es h h') : h'.pending.Perm (h.pending ++ es) := by
  rw [hl.pending]
  exact List.perm_append_comm.trans (es.reverse_perm.append_left h.pending)

end Lists

section Push

variable (f : Frame) (ts : List Peer) (h : Hub)

/-- A delivery lists the connections that it closes, and no others. -/
theorem mem_handles_push_dead_iff (p : Peer) :
    p.handle ∈ (push f ts h).dead.map Peer.handle ↔
      (h.connection p).isOpen = true ∧ ((push f ts h).hub.connection p).isOpen = false := by
  constructor
  · intro hin
    obtain ⟨d, hd, heq⟩ := List.mem_map.mp hin
    rw [connection_eq_of_handle heq.symm, connection_eq_of_handle heq.symm]
    exact (mem_push_dead hd).2
  · rintro ⟨hopen, hclosed⟩
    induction ts generalizing h with
    | nil => exact absurd (hopen.symm.trans hclosed) Bool.noConfusion
    | cons q ts ih =>
      simp only [push_cons] at hclosed ⊢
      cases hfirst : ((h.update q (Connection.offer f)).connection p).isOpen with
      | true =>
        have hlater := ih _ hfirst hclosed
        split
        next => exact List.mem_cons_of_mem _ hlater
        next => exact hlater
      | false =>
        -- nobody else is changed, so it is the first that has no room
        have heq : p.handle = q.handle := by
          by_contra hne
          rw [connection_update_of_ne q p _ h hne, hopen] at hfirst
          cases hfirst
        have hsame := connection_eq_of_handle heq h
        rw [hsame] at hopen
        rw [connection_update_of_handle_eq q p _ h heq (offer_absent f), hsame,
          Connection.isOpen_offer, hopen, Bool.true_and, decide_eq_false_iff_not] at hfirst
        rw [if_pos ⟨hopen, Nat.eq_zero_of_not_pos hfirst⟩, heq]
        exact List.mem_cons_self

theorem nodup_push_dead : ((push f ts h).dead.map Peer.handle).Nodup := by
  induction ts generalizing h with
  | nil => exact List.nodup_nil
  | cons q ts ih =>
    simp only [push_cons]
    split
    next hfull =>
      refine List.nodup_cons.mpr ⟨fun hin => ?_, ih _⟩
      have hopen := ((mem_handles_push_dead_iff f ts _ q).mp hin).1
      rw [connection_update_of_handle_eq q q _ h rfl (offer_absent f), Connection.isOpen_offer,
        hfull.2] at hopen
      exact absurd (hopen.symm.trans (Bool.and_false _)) Bool.noConfusion
    next => exact ih _

theorem lists_offer : Lists (push f ts h).dead h (offer f ts h).1 where
  grows := .offer h fun _ _ => trivial
  nodup := nodup_push_dead f ts h
  opened := fun p hp => (mem_push_dead hp).2.1
  closed := fun p hp => (mem_push_dead hp).2.2
  pending := by rw [offer, pending_record, push_pending]
  draining := offer_draining f ts h

end Push

section Rounds

variable {h : Hub}

theorem Posting.lists {d : Posting} (hflag : d.hub.draining = true) :
    Lists d.entries d.hub d.after := by
  rw [Posting.after, deliver_of_draining hflag]
  exact lists_offer d.frame d.targets d.hub

theorem lists_farewellPostings (hflag : h.draining = true) (user : UserId)
    (channels : List ChannelId) :
    Lists ((farewellPostings user channels h).flatMap Posting.entries) h
        (channels.foldl (fun h channel => announceLeft deliver user channel h) h) ∧
      ∀ d ∈ farewellPostings user channels h, d.hub.draining = true := by
  induction channels generalizing h with
  | nil => exact ⟨.of_grows (.refl _ h) rfl rfl, by simp [farewellPostings]⟩
  | cons channel channels ih =>
    let toRoom : Posting := ⟨h, leftFrame channel user, h.rooms.members channel⟩
    let toAll : Posting := ⟨toRoom.after, leftFrame channel user, toRoom.after.registered⟩
    have hroom : Lists toRoom.entries h toRoom.after := toRoom.lists hflag
    have htold : toRoom.after.draining = true := hroom.draining.trans hflag
    have hall : Lists toAll.entries toRoom.after toAll.after := toAll.lists htold
    obtain ⟨hrest, hrunning⟩ := ih (hall.draining.trans htold)
    constructor
    · rw [farewellPostings, List.flatMap_cons, List.flatMap_cons]
      exact hroom.trans (hall.trans hrest)
    · intro d hd
      rcases List.mem_cons.mp hd with rfl | hd
      · exact hflag
      · rcases List.mem_cons.mp hd with rfl | hd
        · exact htold
        · exact hrunning d hd

/-- The connection has been removed for good. -/
structure Gone (p : Peer) (h : Hub) : Prop where
  state : (h.connection p).state = .closed
  unregistered : h.isRegistered p = false

theorem Gone.later {p : Peer} {h' : Hub} (hgone : h.Gone p) (hg : Grows (fun _ _ => True) h h') :
    h'.Gone p where
  state := by
    have hle := (hg.connection p).rank_le
    rw [hgone.state] at hle
    cases hstate : (h'.connection p).state with
    | closed => rfl
    | connecting | active | closing =>
      rw [hstate] at hle
      exact absurd hle (by decide)
  unregistered := by
    rw [isRegistered_eq_false_iff]
    exact fun q hq => isRegistered_eq_false_iff.mp hgone.unregistered q (hg.registered.subset hq)

/-- A turn, step by step: off the set and out of its rooms, the rooms told, marked, and counted. -/
theorem turn_eq (p : Peer) (h : Hub) :
    ∃ f, turn p h = (((h.rooms.leaveAll p.id).2.foldl
      (fun h channel => announceLeft deliver p.user channel h) (h.detach p)).update p
        Connection.markClosed).count f := by
  by_cases hreg : h.isRegistered p = true
  · exact ⟨_, if_pos hreg⟩
  · exact ⟨id, if_neg hreg⟩

/-- A round lists those whom its deliveries close, and removes the one it is about. -/
theorem Round.lists {r : Round} (hflag : r.hub.draining = true) :
    Lists r.entries r.hub r.after ∧ r.after.Gone r.removed ∧
      ∀ d ∈ r.deliveries, d.hub.draining = true := by
  obtain ⟨f, hafter⟩ := turn_eq r.removed r.hub
  have hdetached : Lists [] r.hub (r.hub.detach r.removed) := .of_grows (.detach _ _ _) rfl rfl
  obtain ⟨htold, hrunning⟩ := lists_farewellPostings (h := r.hub.detach r.removed) hflag
    r.removed.user (r.hub.rooms.leaveAll r.removed.id).2
  have hmarked (g : Hub) : Lists [] g ((g.update r.removed Connection.markClosed).count f) := by
    have hclosing : Grows (fun _ _ => True) g (g.update r.removed Connection.markClosed) :=
      .update _ r.removed g (fun _ => rfl) fun c => .markClosed _ c
    exact .of_grows (hclosing.count f) rfl rfl
  rw [Round.after, hafter]
  refine ⟨?_, ⟨?_, ?_⟩, hrunning⟩
  · have hround := (hdetached.trans htold).trans (hmarked _)
    rw [List.nil_append, List.append_nil] at hround
    exact hround
  · exact congrArg Connection.state
      (connection_update_of_handle_eq r.removed r.removed Connection.markClosed _ rfl rfl)
  · rw [isRegistered_eq_false_iff]
    intro q hq
    have hstays := (htold.trans (hmarked _)).grows.registered.subset hq
    exact bne_iff_ne.mp (List.mem_filter.mp hstays).2

/-- What the rounds come to. -/
structure Cleared (h : Hub) (rs : List Round) (last : Hub) : Prop where
  closes : Closes (rs.flatMap Round.entries) h last
  perm : (rs.map Round.removed).Perm (h.pending ++ rs.flatMap Round.entries)
  length_le : rs.length ≤ h.measure
  running : ∀ r ∈ rs, r.hub.draining = true
  gone : ∀ r ∈ rs, last.Gone r.removed
  pending : last.pending = []

theorem Loop.cleared {rs : List Round} {last : Hub} (hloop : Loop h rs last)
    (hflag : h.draining = true) : Cleared h rs last := by
  induction hloop with
  | done hnil =>
    refine ⟨.of_grows (.refl _ _), ?_, Nat.zero_le _, by simp, by simp, hnil⟩
    rw [hnil]
    exact .nil
  | @round h last p rest rs hcons hloop ih =>
    let r : Round := ⟨{ h with pending := rest }, p⟩
    obtain ⟨hlists, hgone, _⟩ := r.lists hflag
    have hrest := ih (hlists.draining.trans hflag)
    have hmeasure : r.after.measure + 1 ≤ h.measure := by
      have hturn : r.after = evict p r.hub := turn_of_draining (h := r.hub) hflag p
      have hle := measure_evict_le p r.hub
      rw [← hturn] at hle
      have hpopped : r.hub.measure + 1 = h.measure := by
        simp only [measure, hcons, List.length_cons, openCount, r]
        omega
      omega
    constructor
    case closes =>
      have hpopped : Grows (fun _ _ => True) h r.hub := .of_table_eq rfl rfl (.refl _)
      exact ((Closes.of_grows hpopped).trans hlists.toCloses).trans hrest.closes
    case perm =>
      have hperm : (rs.map Round.removed).Perm
          (rest ++ r.entries ++ rs.flatMap Round.entries) :=
        hrest.perm.trans (hlists.pending_perm.append_right _)
      rw [hcons, List.flatMap_cons, ← List.append_assoc]
      exact hperm.cons p
    case length_le =>
      rw [List.length_cons]
      exact Nat.le_trans (Nat.succ_le_succ hrest.length_le) hmeasure
    case running =>
      intro s hs
      rcases List.mem_cons.mp hs with rfl | hs
      · exact hflag
      · exact hrest.running s hs
    case gone =>
      intro s hs
      rcases List.mem_cons.mp hs with rfl | hs
      · exact hgone.later hrest.closes.grows
      · exact hrest.gone s hs
    case pending => exact hrest.pending

theorem exists_loop (hflag : h.draining = true) : ∃ rs, Loop h rs h.evictPending := by
  induction h using Hub.evictPending.induct with
  | case1 h hnil =>
    rw [evictPending_of_nil hnil]
    exact ⟨[], .done hnil⟩
  | case2 h p rest hcons ih =>
    let r : Round := ⟨{ h with pending := rest }, p⟩
    have hturn : r.after = evict p r.hub := turn_of_draining (h := r.hub) hflag p
    have hkept : r.after.draining = true := (r.lists hflag).1.draining.trans hflag
    obtain ⟨rs, hloop⟩ := ih (hturn ▸ hkept)
    rw [evictPending_of_cons hcons]
    exact ⟨r :: rs, .round hcons (hturn.symm ▸ hloop)⟩

/-- A delivery that finds somebody dead runs the loop once. -/
theorem exists_cleared_of_dead (hclear : h.draining = false) {f : Frame} {ts : List Peer}
    (hdead : (push f ts h).dead ≠ []) :
    ∃ rs last, Loop { (offer f ts h).1 with draining := true } rs last ∧
      Cleared { (offer f ts h).1 with draining := true } rs last ∧
      (deliver f ts h).1 = { last with draining := false } := by
  let entered : Hub := { (offer f ts h).1 with draining := true }
  have hflag : entered.draining = true := rfl
  have hnot : (offer f ts h).1.draining = false := (offer_draining f ts h).trans hclear
  obtain ⟨rs, hloop⟩ := exists_loop hflag
  refine ⟨rs, _, hloop, hloop.cleared hflag, ?_⟩
  rw [(deliver_of_dead hdead).1, drain, if_neg (Bool.eq_false_iff.mp hnot)]

end Rounds

/-- A delivery that finds somebody dead starts the loop, and the loop ends with nobody left on the
list, whatever the state.  Every entry is the doing of the one delivery that closed the connection,
so that there are no more rounds than entries at the start and connections that were open; what is
delivered in a round adds to the list and starts no loop of its own. -/
theorem eviction_loop_ends {h : Hub} (hclear : h.draining = false) {f : Frame} {ts : List Peer}
    (hdead : (push f ts h).dead ≠ []) :
    let first : Posting := ⟨h, f, ts⟩
    ∃ rounds last, Loop { (offer f ts h).1 with draining := true } rounds last ∧
      first.after = { last with draining := false } ∧ first.after.pending = [] ∧
      first.after.draining = false ∧ rounds.length ≤ h.pending.length + h.openCount ∧
      let deliveries := first :: rounds.flatMap Round.deliveries
      let entries := deliveries.flatMap Posting.entries
      (rounds.map Round.removed).Perm (h.pending ++ entries) ∧
      (entries.map Peer.handle).Nodup ∧
      (∀ p ∈ entries, (h.connection p).isOpen = true) ∧
      (∀ p ∈ h.pending ++ entries, first.after.Gone p) ∧
      (∀ d ∈ deliveries, ∀ p : Peer, p.handle ∈ d.entries.map Peer.handle ↔
        (d.hub.connection p).isOpen = true ∧ (d.offered.connection p).isOpen = false) ∧
      ∀ r ∈ rounds, r.after.pending = r.entries.reverse ++ r.hub.pending ∧
        ∀ d ∈ r.deliveries, d.hub.draining = true ∧
          d.after = (offer d.frame d.targets d.hub).1 ∧
          d.after.pending = d.entries.reverse ++ d.hub.pending := by
  intro first
  obtain ⟨rounds, last, hloop, hcleared, hafter⟩ := exists_cleared_of_dead hclear hdead
  have hoffered : Lists first.entries h (offer f ts h).1 := lists_offer f ts h
  have hstarted : Grows (fun _ _ => True) (offer f ts h).1
      { (offer f ts h).1 with draining := true } :=
    .of_table_eq rfl rfl (.refl _)
  have hclosed := hoffered.toCloses.trans ((Closes.of_grows hstarted).trans hcleared.closes)
  have hremoved : (rounds.map Round.removed).Perm
      (h.pending ++ (first.entries ++ rounds.flatMap Round.entries)) := by
    rw [← List.append_assoc]
    exact hcleared.perm.trans (hoffered.pending_perm.append_right _)
  have hentries : (first :: rounds.flatMap Round.deliveries).flatMap Posting.entries =
      first.entries ++ rounds.flatMap Round.entries := by
    rw [List.flatMap_cons, List.flatMap_assoc]
    rfl
  rw [show first.after = _ from hafter]
  refine ⟨rounds, last, hloop, rfl, hcleared.pending, rfl, ?_, ?_⟩
  · exact Nat.le_trans hcleared.length_le (measure_offer_le f ts h)
  · intro deliveries entries
    rw [show entries = _ from hentries]
    refine ⟨hremoved, hclosed.nodup, hclosed.opened, ?_, ?_, ?_⟩
    · intro p hp
      obtain ⟨r, hr, rfl⟩ := List.mem_map.mp (hremoved.symm.subset hp)
      exact (hcleared.gone r hr).later (.of_table_eq rfl rfl (.refl _))
    · exact fun d _ p => mem_handles_push_dead_iff d.frame d.targets d.hub p
    · intro r hr
      obtain ⟨hlists, _, hrunning⟩ := r.lists (hcleared.running r hr)
      refine ⟨hlists.pending, fun d hd => ⟨hrunning d hd, ?_, ?_⟩⟩
      · rw [Posting.after, deliver_of_draining (hrunning d hd)]
      · exact (d.lists (hrunning d hd)).pending

/-- Eve's reader is gone when a frame goes to everyone.  To tell of her costs Ann her place, and
that costs Kim hers, who was never registered; Bob has been waiting all along. -/
theorem hall_is_cleared :
    let h : Hub := { (new ⟨2, 8⟩).run [.connect "ann", .connect "bob", .connect "eve",
      .create "kim" 1 none, .enterRoom 0 "hall", .enterRoom 1 "hall", .enterRoom 2 "hall",
      .enterRoom 3 "hall", .beginClose 1, .abandon 2] with pending := [⟨1, .fresh 1, "bob"⟩] }
    h.draining = false ∧ (push (.event .pong) h.registered h).dead = [⟨2, .fresh 2, "eve"⟩] ∧
      (h.broadcast .pong).1.rooms.members "hall" = [] ∧ (h.broadcast .pong).1.pending = [] ∧
      ∃ rounds last, Loop { (offer (.event .pong) h.registered h).1 with draining := true }
        rounds last ∧ rounds.length ≤ 4 := by
  intro h
  have hclear : h.draining = false := by decide +kernel
  have heve : (push (.event .pong) h.registered h).dead = [⟨2, .fresh 2, "eve"⟩] := by
    decide +kernel
  have hdead : (push (.event .pong) h.registered h).dead ≠ [] := heve ▸ List.cons_ne_nil _ _
  have hhall : (h.broadcast .pong).1.rooms.members "hall" = [] := by decide +kernel
  have hbound : h.pending.length + h.openCount = 4 := by decide +kernel
  obtain ⟨rounds, last, hloop, _, hnil, _, hle, _⟩ := eviction_loop_ends hclear hdead
  exact ⟨hclear, heve, hhall, hnil, rounds, last, hloop, hbound ▸ hle⟩

end ChatHub.Hub
