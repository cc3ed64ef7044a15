import ChatHub.Proofs.Hub.Roster
import ChatHub.Proofs.Hub.Telling
/-!
The order in which a join is told.  Whoever comes into a room can lose its place while the others
are told that it came; whether they hear last that it is there or that it has gone depends on when
that happens.
-/

namespace ChatHub.Hub

/-- Tells that a user has joined a room. -/
def joinedFrame (channel : ChannelId) (user : UserId) : Frame := .event (.joined channel user)

/-- Nothing that was told says that the user of `p` has joined the room after the leaving of `p`
itself. -/
def InOrder (p : Peer) (channel : ChannelId) (log : List (Frame × Option ConnectionId)) : Prop :=
  log.Pairwise fun earlier later =>
    earlier = (leftFrame channel p.user, some p.id) → later.1 ≠ joinedFrame channel p.user

instance (p : Peer) (channel : ChannelId) (log : List (Frame × Option ConnectionId)) :
    Decidable (InOrder p channel log) :=
  inferInstanceAs (Decidable (log.Pairwise _))

/-- The hub when `p` has been let into a room and sent the list of its users, and whether its coming
is to be announced. -/
def greet (p : Peer) (channel : ChannelId) (h : Hub) : Hub × Bool :=
  match h.rooms.join channel p (h.connection p).queue.closed with
  | (_, none) => (h, false)
  | (rooms, some users) =>
      let sent := Hub.sendTo p ⟨.voiceRoomState, .roomState ⟨channel, users⟩⟩ { h with rooms }
      (sent.1, sent.2 || (sent.1.connection p).isOpen)

/-- The hub when the others in the room have been told that `p` has come. -/
def tellRoom (p : Peer) (channel : ChannelId) (h : Hub) : Hub :=
  (h.broadcastToRoom channel (.joined channel p.user) (some p.id)).1

/-- One who joins loses its place while the room is told, and everyone is still to be told. -/
def LostOnTheWay (h : Hub) (p : Peer) (channel : ChannelId) : Prop :=
  (h.greet p channel).2 = true ∧ p ∉ ((h.greet p channel).1.tellRoom p channel).registered

instance (h : Hub) (p : Peer) (channel : ChannelId) : Decidable (h.LostOnTheWay p channel) :=
  inferInstanceAs (Decidable (_ ∧ _))

section Told

variable {h : Hub} {o p : Peer} {channel : ChannelId}

theorem joined_ne_leftFrame (channel' : ChannelId) (user user' : UserId) :
    joinedFrame channel user ≠ leftFrame channel' user' := by
  simp [joinedFrame, leftFrame, Event.joined, Event.left]

/-- The leaving of `p` itself is told if `p` is one of those who go and was in the room. -/
theorem mem_obituaries (o : Peer) (channel : ChannelId) {gone : List Peer} (hw : h.WellFormed)
    (hp : h.Distinguishes p) (hgone : ∀ d ∈ gone, d ∈ h.registered) :
    (leftFrame channel p.user, some p.id) ∈ h.obituaries gone o ↔
      p ∈ gone ∧ p ∈ h.rooms.members channel := by
  have hleft {d : Peer} : leftFrame channel p.user ∈ h.farewells d o ↔
      channel ∈ h.rooms.roomsOf d ∧ d.user = p.user :=
    left_mem_farewells (s := (channel, p.user))
  rw [obituaries, List.mem_flatMap]
  constructor
  · rintro ⟨d, hd, hmem⟩
    obtain ⟨g, hg, heq⟩ := List.mem_map.mp hmem
    obtain ⟨rfl, hid⟩ := Prod.ext_iff.mp heq
    obtain rfl : d = p := hp d (hgone d hd) (Option.some.inj hid)
    exact ⟨hd, hw.mem_roomsOf.mp (hleft.mp hg).1⟩
  · rintro ⟨hd, hroom⟩
    exact ⟨p, hd, List.mem_map_of_mem (hleft.mpr ⟨hw.mem_roomsOf.mpr hroom, rfl⟩)⟩

theorem map_fst_obituaries (gone : List Peer) :
    (h.obituaries gone o).map Prod.fst = gone.flatMap fun d => h.farewells d o := by
  simp only [obituaries, List.map_flatMap, List.map_map, Function.comp_def, List.map_id']

theorem joinedFrame_notMem_obituaries (h : Hub) (gone : List Peer) (o : Peer)
    (channel : ChannelId) (user : UserId) :
    joinedFrame channel user ∉ (h.obituaries gone o).map Prod.fst := by
  rw [map_fst_obituaries, List.mem_flatMap]
  rintro ⟨d, _, hmem⟩
  obtain ⟨room, _, heq⟩ := mem_farewells.mp hmem
  exact joined_ne_leftFrame room user d.user heq

/-- What `o` is told of a delivery from `h` to `h'`: that `p` has joined, in the case `news`, and
then that `p` has left, if it has. -/
structure Reports (o p : Peer) (channel : ChannelId) (news : Prop) (h h' : Hub)
    (log : List (Frame × Option ConnectionId)) : Prop where
  map_fst : log.map Prod.fst = gained h h' o
  inOrder : InOrder p channel log
  joined : joinedFrame channel p.user ∈ log.map Prod.fst ↔ news
  left : (leftFrame channel p.user, some p.id) ∈ log ↔
    p ∈ h.rooms.members channel ∧ p ∉ h'.rooms.members channel

/-- What is told of a delivery is what the one who is told has gained by it. -/
theorem map_fst_told (hq : h.Quiescent) {f : Frame} {targets gone : List Peer} {h' : Hub}
    (hd : Delivered h f targets gone h') (ho : o ∈ h'.registered) (last : Option ConnectionId) :
    ((if o ∈ targets then [(f, last)] else []) ++ h.obituaries gone o).map Prod.fst =
      gained h h' o := by
  obtain ⟨hreg, hstays⟩ := hd.mem_registered.mp ho
  have hgained : gained h h' o = h.owedInTurn f targets gone o := by
    apply gained_eq_of_append
    rw [hd.survivor_takes hq hreg hstays]
    rfl
  rw [hgained, List.map_append, map_fst_obituaries, owedInTurn]
  congr 1
  · split
    · rfl
    · rfl
  · apply List.flatMap_congr
    intro d hin
    rw [if_neg fun heq : d = o => hstays (heq ▸ hin)]

theorem Consistent.reports_deliver (hc : h.Consistent) (hp : h.Knows p) (channel : ChannelId)
    {f : Frame} {targets : List Peer} (htargets : h.Receivers targets)
    (hf : f ≠ leftFrame channel p.user) (ho : o ∈ (deliver f targets h).1.registered)
    (last : Option ConnectionId) :
    Reports o p channel (f = joinedFrame channel p.user ∧ o ∈ targets) h (deliver f targets h).1
      (toldOf o last (Trail.deliver f targets h).moves) := by
  obtain ⟨gone, hd, htold⟩ := exists_told_deliver hc.toQuiescent f htargets
  have hhead : ∀ a ∈ (if o ∈ targets then [(f, last)] else []), a = (f, last) ∧ o ∈ targets := by
    intro a ha
    split at ha
    next hin => exact ⟨List.mem_singleton.mp ha, hin⟩
    next => cases ha
  have hquiet := joinedFrame_notMem_obituaries h gone o channel p.user
  rw [htold o ho last]
  constructor
  case map_fst => exact map_fst_told hc.toQuiescent hd ho last
  case inOrder =>
    rw [InOrder, List.pairwise_append]
    refine ⟨?_, ?_, ?_⟩
    · split
      · exact List.pairwise_singleton _ _
      · exact List.Pairwise.nil
    · refine List.pairwise_of_forall_mem_list fun _ _ later hlater _ heq => hquiet ?_
      exact heq ▸ List.mem_map_of_mem hlater
    · intro earlier hearlier later _ heq
      rw [(hhead earlier hearlier).1, Prod.ext_iff] at heq
      exact absurd heq.1 hf
  case joined =>
    rw [List.map_append, List.mem_append, or_iff_left hquiet, List.mem_map]
    constructor
    · rintro ⟨a, ha, heq⟩
      obtain ⟨rfl, hin⟩ := hhead a ha
      exact ⟨heq, hin⟩
    · rintro ⟨heq, hin⟩
      rw [if_pos hin]
      exact ⟨(f, last), List.mem_singleton_self _, heq⟩
  case left =>
    have hgone := mem_obituaries o channel hc.toWellFormed (hc.distinguishes hp) hd.gone_registered
    rw [List.mem_append, hgone, hc.mem_members_without hd.rooms]
    constructor
    · rintro (hin | ⟨hin, hroom⟩)
      · exact absurd (Prod.ext_iff.mp (hhead _ hin).1).1.symm hf
      · exact ⟨hroom, fun hstill => hstill.2 hin⟩
    · rintro ⟨hroom, hout⟩
      exact Or.inr ⟨by_contra fun hin => hout ⟨hroom, hin⟩, hroom⟩

end Told

section Join

variable {h : Hub} {p : Peer} {channel : ChannelId}

/-- A join and its moves, delivery by delivery. -/
theorem joinRoom_of_greet {rooms : Rooms} {users : List UserId} {greeted : Hub} {announced : Bool}
    (hjoin : h.rooms.join channel p (h.connection p).queue.closed = (rooms, some users))
    (hgreet : h.greet p channel = (greeted, announced)) :
    let state := Frame.event ⟨.voiceRoomState, .roomState ⟨channel, users⟩⟩
    greeted = (deliver state [p] { h with rooms }).1 ∧
      (h.joinRoom p channel).1 =
        (if announced then
          (deliver (joinedFrame channel p.user) (greeted.tellRoom p channel).registered
            (greeted.tellRoom p channel)).1
        else greeted) ∧
      (Trail.joinRoom p channel h).moves =
        .enter p channel :: ((Trail.deliver state [p] { h with rooms }).moves ++
          if announced then
            (Trail.deliver (joinedFrame channel p.user)
              ((greeted.rooms.members channel).filter fun q => some p.id != some q.id)
              greeted).moves ++
            (Trail.deliver (joinedFrame channel p.user)
              (greeted.tellRoom p channel).registered (greeted.tellRoom p channel)).moves
          else []) := by
  simp only [greet, hjoin, Prod.mk.injEq] at hgreet
  obtain ⟨rfl, rfl⟩ := hgreet
  refine ⟨rfl, ?_, ?_⟩
  · rw [joinRoom_eq hjoin]
    dsimp only
    rw [← Bool.not_not (_ || _), Bool.not_or]
    split
    next hrefused => rw [hrefused, if_neg (by decide)]
    next hkept => rw [Bool.eq_false_iff.mpr hkept, if_pos (by decide)]; rfl
  rw [Trail.joinRoom]
  split
  next hnone => rw [hjoin] at hnone; cases hnone
  next rooms' users' hjoin' =>
    rw [hjoin] at hjoin'
    cases hjoin'
    rw [← Bool.not_not (_ || _), Bool.not_or]
    refine Trail.moves_branch (· = _) (fun hrefused => ?_) fun hkept => ?_
    · rw [hrefused, if_neg (by decide), List.append_nil]
      rfl
    · rw [Bool.eq_false_iff.mpr hkept, if_pos (by decide)]
      rfl

variable {o : Peer}

/-- Two logs in a row are in order if each is and nothing in the second comes too late. -/
theorem inOrder_append {log log' : List (Frame × Option ConnectionId)} :
    InOrder p channel (log ++ log') ↔ InOrder p channel log ∧ InOrder p channel log' ∧
      ((leftFrame channel p.user, some p.id) ∈ log →
        joinedFrame channel p.user ∉ log'.map Prod.fst) := by
  rw [InOrder, List.pairwise_append]
  refine and_congr_right fun _ => and_congr_right fun _ => ?_
  constructor
  · intro hcross hleft hjoined
    obtain ⟨later, hlater, heq⟩ := List.mem_map.mp hjoined
    exact hcross _ hleft later hlater rfl heq
  · intro hcross earlier hearlier later hlater heq hjoined
    exact hcross (heq ▸ hearlier) (List.mem_map.mpr ⟨later, hlater, hjoined⟩)

/-- Of three deliveries the last of which tells `o` that `p` has joined, all is told in order if `p`
is in the room until then. -/
theorem Reports.announced {h₁ h₂ h₃ : Hub} {news₁ news₂ news₃ : Prop}
    {log₁ log₂ log₃ : List (Frame × Option ConnectionId)}
    (hr₁ : Reports o p channel news₁ h h₁ log₁) (hr₂ : Reports o p channel news₂ h₁ h₂ log₂)
    (hr₃ : Reports o p channel news₃ h₂ h₃ log₃) (hnews : news₃) (hin : p ∈ h.rooms.members channel)
    (hg₁ : Grows (fun _ _ => True) h h₁) (hg₂ : Grows (fun _ _ => True) h₁ h₂)
    (hg₃ : Grows (fun _ _ => True) h₂ h₃)
    (hsub₂ : p ∈ h₂.rooms.members channel → p ∈ h₁.rooms.members channel)
    (hsub₃ : p ∈ h₃.rooms.members channel → p ∈ h₂.rooms.members channel) :
    (log₁ ++ (log₂ ++ log₃)).map Prod.fst = gained h h₃ o ∧
      (InOrder p channel (log₁ ++ (log₂ ++ log₃)) ↔ p ∈ h₂.rooms.members channel) ∧
      ((leftFrame channel p.user, some p.id) ∈ log₁ ++ (log₂ ++ log₃) ↔
        p ∉ h₃.rooms.members channel) := by
  have hjoined := hr₃.joined.mpr hnews
  refine ⟨?_, ?_, ?_⟩
  · rw [List.map_append, List.map_append, hr₁.map_fst, hr₂.map_fst, hr₃.map_fst,
      gained_trans hg₁ (hg₂.trans hg₃), gained_trans hg₂ hg₃]
  · rw [inOrder_append, inOrder_append, List.map_append]
    constructor
    · rintro ⟨_, ⟨_, _, hlate⟩, hlate'⟩
      by_contra hout
      by_cases hstill : p ∈ h₁.rooms.members channel
      · exact hlate (hr₂.left.mpr ⟨hstill, hout⟩) hjoined
      · exact hlate' (hr₁.left.mpr ⟨hin, hstill⟩) (List.mem_append_right _ hjoined)
    · intro hthere
      refine ⟨hr₁.inOrder, ⟨hr₂.inOrder, hr₃.inOrder, fun hleft => ?_⟩, fun hleft => ?_⟩
      · exact absurd hthere (hr₂.left.mp hleft).2
      · exact absurd (hsub₂ hthere) (hr₁.left.mp hleft).2
  · rw [List.mem_append, List.mem_append, hr₁.left, hr₂.left, hr₃.left]
    tauto

/-- When the joiner has been greeted, the room is told and then everyone. -/
theorem Consistent.announced {greeted : Hub} (hc : greeted.Consistent) (hp : greeted.Knows p)
    (hhere : p ∈ greeted.registered → p ∈ greeted.rooms.members channel) {news : Prop}
    {log : List (Frame × Option ConnectionId)} (hr : Reports o p channel news h greeted log)
    (hin : p ∈ h.rooms.members channel) (hg : Grows (fun _ _ => True) h greeted)
    {others : List Peer} (hothers : greeted.Receivers others) {roomTold everyoneTold : Hub}
    (hroomTold : roomTold = (deliver (joinedFrame channel p.user) others greeted).1)
    (heveryoneTold : everyoneTold =
      (deliver (joinedFrame channel p.user) roomTold.registered roomTold).1)
    (ho : o ∈ everyoneTold.registered) (last last' : Option ConnectionId) :
    let log' := log ++ (toldOf o last
        (Trail.deliver (joinedFrame channel p.user) others greeted).moves ++
      toldOf o last'
        (Trail.deliver (joinedFrame channel p.user) roomTold.registered roomTold).moves)
    log'.map Prod.fst = gained h everyoneTold o ∧
      (InOrder p channel log' ↔ p ∈ roomTold.registered) ∧
      ((leftFrame channel p.user, some p.id) ∈ log' ↔
        p ∉ everyoneTold.rooms.members channel) := by
  subst hroomTold heveryoneTold
  have hnews : joinedFrame channel p.user ≠ leftFrame channel p.user :=
    joined_ne_leftFrame channel p.user p.user
  have hrc : (deliver (joinedFrame channel p.user) others greeted).1.Consistent :=
    hc.deliver _ hothers
  have hg' := grows_deliver (joinedFrame channel p.user) others greeted
  have hroom := hrc.registered_deliver_subset hrc.receivers_registered ho
  have hp' := (hg'.peer? p.handle).trans hp
  have hr' := hc.reports_deliver hp channel hothers hnews hroom last
  have hr'' := hrc.reports_deliver hp' channel hrc.receivers_registered hnews ho last'
  obtain ⟨_, hd⟩ := exists_delivered hc.toQuiescent (joinedFrame channel p.user) hothers
  obtain ⟨_, hd'⟩ :=
    exists_delivered hrc.toQuiescent (joinedFrame channel p.user) hrc.receivers_registered
  have htold := hr.announced hr' hr'' ⟨rfl, hroom⟩ hin hg hg' (grows_deliver _ _ _)
    (fun hthere => ((hc.mem_members_without hd.rooms).mp hthere).1)
    (fun hthere => ((hrc.mem_members_without hd'.rooms).mp hthere).1)
  refine ⟨htold.1, htold.2.1.trans ⟨hrc.mem_registered_of_mem_members, fun hreg => ?_⟩, htold.2.2⟩
  exact hc.mem_members_deliver hothers hreg (hhere (hg'.registered.subset hreg))

/-- What is told of a join is in order unless the joiner is lost on the way, and it says that the
joiner has left if it is not in the room in the end. -/
theorem Consistent.reports_joinRoom (hc : h.Consistent) (hp : h.Knows p)
    (hopen : (h.connection p).queue.closed = false)
    (ho : o ∈ (h.joinRoom p channel).1.registered) :
    let log := toldOf o none (Trail.joinRoom p channel h).moves
    log.map Prod.fst = gained h (h.joinRoom p channel).1 o ∧
      (InOrder p channel log ↔ ¬ h.LostOnTheWay p channel) ∧
      ((leftFrame channel p.user, some p.id) ∈ log ↔
        p ∉ (h.joinRoom p channel).1.rooms.members channel) := by
  let entered : Hub := { h with rooms := ⟨Rooms.insert channel p h.rooms.rooms⟩ }
  have hentered : entered.Consistent := hc.enter hp hopen channel
  have hin : p ∈ entered.rooms.members channel :=
    Rooms.mem_members_insert.mpr (Or.inl ⟨rfl, rfl⟩)
  have hto := receivers_singleton (hentered.mem_registered_of_mem_members hin)
  obtain ⟨users, hjoin⟩ : ∃ users, h.rooms.join channel p (h.connection p).queue.closed =
      (entered.rooms, some users) := by
    rw [Rooms.join, hopen]
    exact ⟨_, rfl⟩
  obtain ⟨greeted, announced, hgreet⟩ : ∃ greeted announced,
      h.greet p channel = (greeted, announced) := ⟨_, _, rfl⟩
  obtain ⟨hgreeted, hjoined, hmoves⟩ := joinRoom_of_greet hjoin hgreet
  let state := Frame.event ⟨.voiceRoomState, .roomState ⟨channel, users⟩⟩
  have hstate : state ≠ leftFrame channel p.user := by
    simp [state, leftFrame, Event.left]
  have hreports (hstays : o ∈ greeted.registered) :
      Reports o p channel (state = joinedFrame channel p.user ∧ o ∈ [p]) entered greeted
        (toldOf o none (Trail.deliver state [p] entered).moves) := by
    rw [hgreeted] at hstays ⊢
    exact hentered.reports_deliver hp channel hto hstate hstays none
  -- nothing is said on the first move, by which `p` enters
  have hlog (ms : List Move) : toldOf o none (.enter p channel :: ms) = toldOf o none ms := rfl
  rw [hmoves, hlog, toldOf_append]
  rw [hjoined] at ho ⊢
  cases announced with
  | false =>
    have hr := hreports ho
    have hlost : ¬ h.LostOnTheWay p channel := by
      rw [LostOnTheWay, hgreet]
      exact fun hl => Bool.false_ne_true hl.1
    simp only [Bool.false_eq_true, if_false, toldOf, List.append_nil]
    exact ⟨hr.map_fst, iff_of_true hr.inOrder hlost, hr.left.trans (and_iff_right hin)⟩
  | true =>
    simp only [if_true] at ho ⊢
    have hgc : greeted.Consistent := hgreeted ▸ hentered.deliver state hto
    have hg : Grows (fun _ _ => True) entered greeted := hgreeted ▸ grows_deliver state [p] entered
    have hothers := (hgc.receivers_members channel).filter fun q => some p.id != some q.id
    have hroomTold : (greeted.tellRoom p channel).Consistent := hgc.deliver _ hothers
    have hstays : o ∈ greeted.registered := hgc.registered_deliver_subset hothers
      (hroomTold.registered_deliver_subset hroomTold.receivers_registered ho)
    have hhere : p ∈ greeted.registered → p ∈ greeted.rooms.members channel := by
      rw [hgreeted]
      exact fun hreg => hentered.mem_members_deliver hto hreg hin
    have hlost : h.LostOnTheWay p channel ↔ p ∉ (greeted.tellRoom p channel).registered := by
      rw [LostOnTheWay, hgreet]
      exact and_iff_right rfl
    rw [hlost, not_not, toldOf_append]
    exact hgc.announced ((hg.peer? p.handle).trans hp) hhere (hreports hstays) hin hg hothers rfl
      rfl ho _ _

/-- The frames that tell of a user's coming into a room or leaving it. -/
def presences (channel : ChannelId) (user : UserId) (fs : List Frame) : List Frame :=
  fs.filter fun f => f == joinedFrame channel user || f == leftFrame channel user

/-- If all is in order and the leaving has been told, the joining is not what was told last. -/
theorem getLast?_presences_ne {log : List (Frame × Option ConnectionId)}
    (horder : InOrder p channel log) (hleft : (leftFrame channel p.user, some p.id) ∈ log) :
    (presences channel p.user (log.map Prod.fst)).getLast? ≠
      some (joinedFrame channel p.user) := by
  intro hlast
  obtain ⟨before, hpresences⟩ := List.getLast?_eq_some_iff.mp hlast
  obtain ⟨fs, gs, hsplit, _, hend⟩ := List.filter_eq_append_iff.mp hpresences
  obtain ⟨log₁, log₂, rfl, _, rfl⟩ := List.map_eq_append_iff.mp hsplit
  have hjoined : joinedFrame channel p.user ∈ log₂.map Prod.fst :=
    (List.mem_filter.mp (hend ▸ List.mem_singleton_self _)).1
  rcases List.mem_append.mp hleft with hearlier | hlater
  · exact (inOrder_append.mp horder).2.2 hearlier hjoined
  · have hin : leftFrame channel p.user ∈ [joinedFrame channel p.user] := by
      rw [← hend, List.mem_filter]
      exact ⟨List.mem_map_of_mem hlater, by simp⟩
    exact joined_ne_leftFrame channel p.user p.user (List.mem_singleton.mp hin).symm

end Join

/-- Whoever stays hears of a join in the order in which it came about, the joiner's coming before
its leaving, unless the joiner is lost while the room is told.  Then everyone is told that it has
come when it has gone. -/
theorem joins_told_in_order_iff (limits : Limits) {ops : List Operation}
    (hops : ∀ op ∈ ops, op.throughHub = true) {p o : Peer} {channel : ChannelId}
    (hp : (run (new limits) ops).Knows p)
    (ho : o ∈ ((run (new limits) ops).joinRoom p channel).1.registered) :
    let h := run (new limits) ops
    let h' := (h.joinRoom p channel).1
    let log := toldOf o none (Trail.joinRoom p channel h).moves
    log.map Prod.fst = gained h h' o ∧
      (InOrder p channel log ↔ ¬ h.LostOnTheWay p channel) ∧
      (¬ h.LostOnTheWay p channel → p ∉ h'.rooms.members channel →
        (presences channel p.user (gained h h' o)).getLast? ≠
          some (joinedFrame channel p.user)) := by
  intro h h' log
  have hc : h.Consistent := (consistent_new limits).run hops
  cases hclosed : (h.connection p).queue.closed with
  | true =>
    have hrefused : h.rooms.join channel p (h.connection p).queue.closed = (h.rooms, none) := by
      rw [Rooms.join, if_pos hclosed]
    have hsame : h' = h := by simp only [h', joinRoom, hrefused]
    have hgained : gained h h' o = [] := hsame ▸ gained_eq_nil_of_le (Nat.le_refl _)
    have hmoves : (Trail.joinRoom p channel h).moves = [] := by
      rw [Trail.joinRoom]
      split
      next => rfl
      next hjoin => rw [hrefused] at hjoin; cases hjoin
    have hlog : log = [] := by simp only [log, hmoves, toldOf]
    have hlost : ¬ h.LostOnTheWay p channel := by
      simp only [LostOnTheWay, greet, hrefused, Bool.false_eq_true, false_and, not_false_eq_true]
    rw [hlog, hgained]
    exact ⟨rfl, iff_of_true List.Pairwise.nil hlost, fun _ _ => Option.some_ne_none _ |>.symm⟩
  | false =>
    obtain ⟨hmap, horder, hleft⟩ := hc.reports_joinRoom hp hclosed ho
    refine ⟨hmap, horder, fun hkept hout => ?_⟩
    rw [← hmap]
    exact getLast?_presences_ne (horder.mpr hkept) (hleft.mpr hout)

/-- The list of users fills Ann's queue, so that the news of her joining costs her the place; Bob
hears that she has come and then that she has gone. -/
theorem bob_hears_ann_go :
    let h := run (new ⟨2, 4⟩) [.connect "ann", .connect "bob", .broadcast .pong, .take 1]
    let h' := (h.joinRoom ⟨0, .fresh 0, "ann"⟩ "hall").1
    ⟨0, .fresh 0, "ann"⟩ ∉ h'.rooms.members "hall" ∧
      (presences "hall" "ann" (gained h h' ⟨1, .fresh 1, "bob"⟩)).getLast? ≠
        some (joinedFrame "hall" "ann") := by
  intro h h'
  have hops : ∀ op ∈ [Operation.connect "ann", .connect "bob", .broadcast .pong, .take 1],
      op.throughHub = true := by decide
  have hp : h.Knows ⟨0, .fresh 0, "ann"⟩ := by decide +kernel
  have ho : ⟨1, .fresh 1, "bob"⟩ ∈ h'.registered := by decide +kernel
  have hkept : ¬ h.LostOnTheWay ⟨0, .fresh 0, "ann"⟩ "hall" := by decide +kernel
  have hout : ⟨0, .fresh 0, "ann"⟩ ∉ h'.rooms.members "hall" := by decide +kernel
  exact ⟨hout, (joins_told_in_order_iff ⟨2, 4⟩ hops hp ho).2.2 hkept hout⟩

/-- The list of users fills Bob's queue.  The news of his joining costs Ann her place and the news
of that costs Bob his, all before everyone is told that he has come. -/
theorem bob_joins_when_gone :
    let h := run (new ⟨4, 4⟩) [.connect "ann", .connect "bob", .connect "eve", .join 0 "hall",
      .broadcast .pong, .broadcast .pong, .take 2, .take 2, .take 2]
    let h' := (h.joinRoom ⟨1, .fresh 1, "bob"⟩ "hall").1
    ⟨2, .fresh 2, "eve"⟩ ∈ h'.registered ∧ h'.rooms.members "hall" = [] ∧
      ¬ InOrder ⟨1, .fresh 1, "bob"⟩ "hall"
        (toldOf ⟨2, .fresh 2, "eve"⟩ none (Trail.joinRoom ⟨1, .fresh 1, "bob"⟩ "hall" h).moves) ∧
      gained h h' ⟨2, .fresh 2, "eve"⟩ =
        [leftFrame "hall" "ann", leftFrame "hall" "bob", joinedFrame "hall" "bob"] := by
  decide +kernel

end ChatHub.Hub
