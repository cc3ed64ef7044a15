import ChatHub.Config.Basic
import ChatHub.Proofs.Hub.Balance
import ChatHub.Proofs.Hub.Undisturbed
/-!
Which configurations let anybody into a room.  A newcomer that joins is sent two frames before it
can read any, and so is everybody else, so that it comes down to the length of the queues: they have
to hold two frames, and no more than a queue can be made for.
-/

namespace ChatHub

namespace Hub

/-- Whoever gets a frame and stays has more to read than before. -/
theorem Consistent.length_waiting_lt {h : Hub} (hc : h.Consistent) (f : Frame)
    {targets : List Peer} (htargets : h.Receivers targets) {p : Peer} (hp : p ∈ targets)
    (hstays : p ∈ (deliver f targets h).1.registered) :
    (h.connection p).queue.waiting.length <
      ((deliver f targets h).1.connection p).queue.waiting.length := by
  obtain ⟨gone, hd⟩ := exists_delivered hc.toQuiescent f htargets
  obtain ⟨hreg, hkept⟩ := hd.mem_registered.mp hstays
  rw [hd.survivor_takes hc.toQuiescent hreg hkept]
  simp only [Connection.taking, owedInTurn, hp, if_true, List.length_append, List.length_singleton]
  omega

/-- One more may register, and everyone who is registered is reading and has room for two frames. -/
structure Hospitable (h : Hub) : Prop where
  vacancy : h.registered.length < h.limits.maxConnections
  reading : ∀ p ∈ h.registered, (h.connection p).queue.abandoned = false
  room : ∀ p ∈ h.registered, 2 ≤ (h.connection p).queue.free

/-- The peer of the next connection that is made. -/
def newcomer (h : Hub) (user : UserId) : Peer := ⟨h.table.length, .fresh h.table.length, user⟩

/-- The hub when the user has connected once more and asked to join the room. -/
def visit (user : UserId) (channel : ChannelId) (h : Hub) : Hub :=
  h.run [.connect user, .handle (h.newcomer user).handle (.voiceJoin channel)]

/-- A newcomer that joins the room stays there, active, and nobody else has to go. -/
structure Welcomes (h : Hub) (user : UserId) (channel : ChannelId) : Prop where
  /-- The newcomer gets a queue in the first place. -/
  makeable : h.limits.queueCapacity ≤ Queue.maxCapacity
  registered : h.newcomer user ∈ (h.visit user channel).registered
  active : ((h.visit user channel).connection (h.newcomer user)).state = .active
  inside : h.newcomer user ∈ (h.visit user channel).rooms.members channel
  others : ∀ p ∈ h.registered, p ∈ (h.visit user channel).registered
  evicted : (h.visit user channel).counters.evicted = h.counters.evicted

/-- The hub in the middle of a visit: the newcomer is in the room and has been told nothing yet. -/
structure Entered (user : UserId) (channel : ChannelId) (h entered : Hub) : Prop where
  consistent : entered.Consistent
  limits : entered.limits = h.limits
  mem_registered : ∀ {q}, q ∈ entered.registered ↔ q = h.newcomer user ∨ q ∈ h.registered
  inside : h.newcomer user ∈ entered.rooms.members channel
  evicted : entered.counters.evicted = h.counters.evicted
  newest : entered.connection (h.newcomer user) =
    { Connection.new (h.newcomer user) h.limits.queueCapacity with state := .active }
  older : ∀ q ∈ h.registered, entered.connection q = h.connection q

/-- A visit is a connection and then a join. -/
theorem Consistent.exists_connected {h : Hub} (hc : h.Consistent) (user : UserId)
    (channel : ChannelId) (hvacancy : h.registered.length < h.limits.maxConnections) :
    ∃ h', Connected user h (h.newcomer user) h' ∧ h'.Consistent ∧
      h.visit user channel = (h'.joinRoom (h.newcomer user) channel).1 := by
  obtain ⟨⟨h', p⟩, hok⟩ : ∃ r, h.connect user = .ok r := by
    rw [Hub.connect, if_neg (Nat.not_le.mpr hvacancy)]
    exact ⟨_, rfl⟩
  have hn := connected_of_connect hok
  obtain rfl : p = h.newcomer user := hn.peer_eq
  have hactive : (h'.connection (h.newcomer user)).isOpen = true := by
    rw [hn.newest]
    rfl
  have hfirst : (h.perform (.connect user)).1 = h' := by
    simp only [Hub.perform, hok]
  refine ⟨h', hn, hc.connect hok, ?_⟩
  rw [visit, Hub.run, List.foldl_cons, hfirst, List.foldl_cons, List.foldl_nil,
    perform_handle hn.knows, Hub.handle, if_pos hactive]

/-- The rest of a visit: the newcomer gets the list of users, and unless that is too much for it the
others of the room and then everyone are told of it. -/
theorem Consistent.exists_entered {h : Hub} (hc : h.Consistent) (user : UserId)
    (channel : ChannelId) (hvacancy : h.registered.length < h.limits.maxConnections) :
    ∃ entered users, Entered user channel h entered ∧
      let p := h.newcomer user
      let sent := (entered.sendTo p ⟨.voiceRoomState, .roomState ⟨channel, users⟩⟩).1
      (sent.connection p).isOpen = false ∧ h.visit user channel = sent ∨
        h.visit user channel = ((sent.broadcastToRoom channel (.joined channel user)
          (some p.id)).1.broadcast (.joined channel user)).1 := by
  obtain ⟨h', hn, hc', hvisit⟩ := hc.exists_connected user channel hvacancy
  have hmem {q : Peer} : q ∈ h'.registered ↔ q = h.newcomer user ∨ q ∈ h.registered :=
    hc.mem_registered_connect hn
  have hopen : (h'.connection (h.newcomer user)).queue.closed = false := by
    rw [hn.newest]
    rfl
  obtain ⟨users, hcases⟩ := joinRoom_cases hopen channel
  refine ⟨{ h' with rooms := ⟨Rooms.insert channel (h.newcomer user) h'.rooms.rooms⟩ }, users,
    ?_, ?_⟩
  · constructor
    case consistent => exact hc'.enter hn.knows hopen channel
    case limits => exact hn.limits
    case mem_registered => exact hmem
    case inside => exact Rooms.mem_members_insert.mpr (Or.inl ⟨rfl, rfl⟩)
    case evicted => simp only [hn.counters]
    case newest => exact hn.newest
    case older => exact fun q hq => hn.connection_eq (hc.known q hq)
  · rw [hvisit]
    exact hcases

namespace Entered

variable {user : UserId} {channel : ChannelId} {h entered : Hub}
  (he : Entered user channel h entered) (users : List UserId)

include he

theorem newcomer_registered : h.newcomer user ∈ entered.registered :=
  he.mem_registered.mpr (Or.inl rfl)

/-- A newcomer that stays to the end has two frames waiting, since it cannot have read any. -/
theorem le_capacity :
    let p := h.newcomer user
    let sent := (entered.sendTo p ⟨.voiceRoomState, .roomState ⟨channel, users⟩⟩).1
    let told := (sent.broadcastToRoom channel (.joined channel user) (some p.id)).1
    p ∈ (told.broadcast (.joined channel user)).1.registered → 2 ≤ h.limits.queueCapacity := by
  intro p sent told hstays
  let last := (told.broadcast (.joined channel user)).1
  have hto := receivers_singleton he.newcomer_registered
  have hsent : sent.Consistent := he.consistent.deliver _ hto
  have hothers := (hsent.receivers_members channel).filter fun q => some p.id != some q.id
  have htold : told.Consistent := hsent.deliver _ hothers
  have hlast : last.Consistent := htold.broadcast _
  have hreg : p ∈ told.registered :=
    htold.registered_deliver_subset htold.receivers_registered hstays
  have hg : Grows _ sent told := grows_deliver _ _ sent
  have hg' : Grows _ told last := grows_deliver _ _ told
  have hlimits : last.limits = h.limits :=
    (((grows_deliver _ _ entered).trans hg).trans hg').limits.trans he.limits
  have hfirst : (entered.connection p).queue.waiting.length <
      (sent.connection p).queue.waiting.length :=
    he.consistent.length_waiting_lt _ hto (List.mem_singleton_self p)
      (hsent.registered_deliver_subset hothers hreg)
  have hbetween : (sent.connection p).queue.waiting.length ≤
      (told.connection p).queue.waiting.length := by
    obtain ⟨fs, hmore, _⟩ := (hg.connection p).waiting
    rw [hmore, List.length_append]
    exact Nat.le_add_right _ _
  have hsecond : (told.connection p).queue.waiting.length <
      (last.connection p).queue.waiting.length :=
    htold.length_waiting_lt _ htold.receivers_registered hreg hstays
  have hfits := (hlast.fits p (hlast.known p hstays)).length_le
  rw [hlimits] at hfits
  omega

/-- Whoever has room for two frames gets all the news of the newcomer and stays. -/
theorem served (hh : h.Hospitable) (hcapacity : 2 ≤ h.limits.queueCapacity) :
    let posts := joinPosts (h.newcomer user) channel users
    Undisturbed (entered.due posts) 3 entered (entered.postAll posts) := by
  intro posts
  have hposts : ∀ a ∈ posts, a.1.Registered entered := by
    simp [posts, joinPosts, Address.Registered, he.newcomer_registered]
  apply he.consistent.toQuiescent.undisturbed_postAll hposts
  refine Or.inl fun q hq _ => (length_due_joinPosts_le entered _ channel users q).trans ?_
  rcases he.mem_registered.mp hq with rfl | hold
  · rw [he.newest]
    exact hcapacity.trans (Nat.le_max_right 1 _)
  · rw [he.older q hold]
    exact hh.room q hold

end Entered

section Visit

variable {h : Hub} (hc : h.Consistent) (user : UserId) (channel : ChannelId)

include hc

theorem Consistent.le_capacity_of_visit (hvacancy : h.registered.length < h.limits.maxConnections)
    (hstays : h.newcomer user ∈ (h.visit user channel).registered) :
    2 ≤ h.limits.queueCapacity := by
  obtain ⟨entered, users, he, ⟨hclosed, hvisit⟩ | hvisit⟩ :=
    hc.exists_entered user channel hvacancy
  · rw [hvisit] at hstays
    have hsent := he.consistent.sendTo (he.consistent.known _ he.newcomer_registered)
      ⟨.voiceRoomState, .roomState ⟨channel, users⟩⟩
    exact absurd (hsent.isOpen hstays) (Bool.not_eq_true _ ▸ hclosed)
  · rw [hvisit] at hstays
    exact he.le_capacity users hstays

theorem Consistent.welcomes (hh : h.Hospitable) (hcapacity : 2 ≤ h.limits.queueCapacity)
    (hmakeable : h.limits.queueCapacity ≤ Queue.maxCapacity) : h.Welcomes user channel := by
  obtain ⟨entered, users, he, hvisit⟩ := hc.exists_entered user channel hh.vacancy
  let posts := joinPosts (h.newcomer user) channel users
  have hs : Undisturbed (entered.due posts) 3 entered (entered.postAll posts) :=
    he.served users hh hcapacity
  obtain ⟨hclosed, _⟩ | hvisit := hvisit
  · have hopen := hs.isOpen_post he.consistent.toQuiescent he.newcomer_registered
    exact absurd hopen (Bool.eq_false_iff.mp hclosed)
  have hvisited : h.visit user channel = entered.postAll posts := hvisit
  have hc' : (h.visit user channel).Consistent :=
    hc.run (List.forall_mem_cons.mpr ⟨rfl, List.forall_mem_singleton.mpr rfl⟩)
  rw [← hvisited] at hs
  have hreg : h.newcomer user ∈ (h.visit user channel).registered :=
    hs.registered ▸ he.newcomer_registered
  constructor
  case makeable => exact hmakeable
  case registered => exact hreg
  case active => exact hc'.active _ hreg
  case inside => exact hs.rooms ▸ he.inside
  case others => exact fun q hq => hs.registered ▸ he.mem_registered.mpr (Or.inr hq)
  case evicted => exact hs.evicted.trans he.evicted

end Visit

end Hub

/-- In a hub with these limits a newcomer is welcome in every room, whenever there is space. -/
def Config.VoiceWorks (c : Config) : Prop :=
  ∀ ops : List Hub.Operation, (∀ op ∈ ops, op.throughHub = true) →
    ((Hub.new c.limits).run ops).Hospitable →
      ∀ user channel, ((Hub.new c.limits).run ops).Welcomes user channel

namespace Config

theorem one_le_of_validate {c : Config} (haccepted : c.validate = .ok ()) :
    1 ≤ c.queueCapacity ∧ 1 ≤ c.maxConnections := by
  simp only [validate] at haccepted
  grind

theorem hospitable_new (limits : Limits) (hvacancy : 1 ≤ limits.maxConnections) :
    (Hub.new limits).Hospitable where
  vacancy := hvacancy
  reading := by simp [Hub.new]
  room := by simp [Hub.new]

/-- Of the configurations that a server starts with, voice works in those whose queues hold two
frames or more and can be made.  Where they hold one, nobody who comes and joins a room is ever
still there after it. -/
theorem voiceWorks_iff {c : Config} (haccepted : c.validate = .ok ()) :
    (c.VoiceWorks ↔ 2 ≤ c.queueCapacity ∧ c.queueCapacity ≤ Queue.maxCapacity) ∧
      (c.queueCapacity = 1 → ∀ ops : List Hub.Operation, (∀ op ∈ ops, op.throughHub = true) →
        let h := (Hub.new c.limits).run ops
        h.registered.length < c.maxConnections → ∀ user channel,
          h.newcomer user ∉ (h.visit user channel).registered) := by
  have hconsistent {ops : List Hub.Operation} (hops : ∀ op ∈ ops, op.throughHub = true) :
      ((Hub.new c.limits).run ops).Consistent :=
    (Hub.consistent_new c.limits).run hops
  have hlimits (ops : List Hub.Operation) : ((Hub.new c.limits).run ops).limits = c.limits :=
    (Hub.Trail.run (Hub.new c.limits) ops).limits_eq
  constructor
  · constructor
    · intro hworks
      have hh := hospitable_new c.limits (one_le_of_validate haccepted).2
      have hwelcome := hworks [] (List.forall_mem_nil _) hh "" ""
      have htwo : 2 ≤ c.queueCapacity :=
        (Hub.consistent_new c.limits).le_capacity_of_visit "" "" hh.vacancy hwelcome.registered
      exact ⟨htwo, hwelcome.makeable⟩
    · rintro ⟨hcapacity, hmakeable⟩ ops hops hh user channel
      refine (hconsistent hops).welcomes user channel hh ?_ ?_
      · rw [hlimits ops]
        exact hcapacity
      · rw [hlimits ops]
        exact hmakeable
  · intro hone ops hops h hvacancy user channel hstays
    have hspace : h.registered.length < h.limits.maxConnections := by
      rw [hlimits ops]
      exact hvacancy
    have htwo := (hconsistent hops).le_capacity_of_visit user channel hspace hstays
    rw [hlimits ops] at htwo
    exact absurd hone (Nat.ne_of_gt htwo)

/-- Ann is in the room and Bob has just come; he has two frames to read and loses nothing. -/
theorem bob_is_welcome :
    let c := { Config.default with secret := "a-long-random-secret-for-tests", queueCapacity := 2 }
    let h := (Hub.new c.limits).run [.connect "ann", .join 0 "hall", .take 0, .take 0]
    c.validate = .ok () ∧ h.Welcomes "bob" "hall" := by
  intro c h
  have haccepted : c.validate = .ok () := by decide +kernel
  have hh : h.Hospitable := ⟨by decide +kernel, by decide +kernel, by decide +kernel⟩
  exact ⟨haccepted, (voiceWorks_iff haccepted).1.mpr (by decide) _ (by decide) hh _ _⟩

/-- The list of users fills Ann's queue, and the news that she has joined is too much for it. -/
theorem ann_is_turned_out :
    let c := { Config.default with secret := "a-long-random-secret-for-tests", queueCapacity := 1 }
    let h := Hub.new c.limits
    c.validate = .ok () ∧ h.Hospitable ∧ ¬ h.Welcomes "ann" "hall" ∧
      (h.visit "ann" "hall").stats.currentConnections = 0 ∧
      (h.visit "ann" "hall").stats.evictedConnections = 1 := by
  intro c h
  have hgone : (h.visit "ann" "hall").registered = [] := by decide +kernel
  refine ⟨by decide +kernel, hospitable_new c.limits (by decide), fun hwelcome => ?_, ?_, ?_⟩
  · exact absurd (hgone ▸ hwelcome.registered) List.not_mem_nil
  · decide +kernel
  · decide +kernel

end Config

end ChatHub
