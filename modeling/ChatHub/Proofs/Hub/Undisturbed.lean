import ChatHub.Proofs.Hub.Disconnection
import ChatHub.Proofs.Hub.Joining
/-!
Joining a room, leaving it and going for good, when no queue refuses a frame on the way.  Each of
them is a row of events sent to one address after another; as long as nobody refuses, set and rooms
stay as they are in between, and what everybody gets can be told from the rooms before the call.
-/

namespace ChatHub.Hub

/-- Nobody but those in `leaving` has refused a frame from `h` to `h'`: whoever refuses one begins
to close, and is never open again. -/
def NoneRefuse (leaving : List Peer) (h h' : Hub) : Prop :=
  ∀ q ∈ h.registered, q ∉ leaving → (h'.connection q).isOpen = true

instance (leaving : List Peer) (h h' : Hub) : Decidable (NoneRefuse leaving h h') :=
  inferInstanceAs (Decidable (∀ q ∈ h.registered, _ → _))

/-- All but those in `leaving` have room for the frames `given`. -/
def HasRoom (leaving : List Peer) (given : Peer → List Frame) (h : Hub) : Prop :=
  ∀ q ∈ h.registered, q ∉ leaving → (given q).length ≤ (h.connection q).queue.free

/-- From `h` to `h'` nobody has lost its place, and each has taken the frames given. -/
structure Served (given : Peer → List Frame) (h h' : Hub) : Prop where
  registered : h'.registered = h.registered
  rooms : h'.rooms = h.rooms
  evicted : h'.counters.evicted = h.counters.evicted
  connection : ∀ p ∈ h.registered, h'.connection p = (h.connection p).taking (given p)

section Served

variable {h h' h'' : Hub} {given given' : Peer → List Frame}

theorem Served.trans (hs : Served given h h') (hs' : Served given' h' h'') :
    Served (fun p => given p ++ given' p) h h'' where
  registered := hs'.registered.trans hs.registered
  rooms := hs'.rooms.trans hs.rooms
  evicted := hs'.evicted.trans hs.evicted
  connection := by
    intro p hp
    rw [hs'.connection p (hs.registered ▸ hp), hs.connection p hp, Connection.taking_taking]

theorem Served.free (hs : Served given h h') {p : Peer} (hp : p ∈ h.registered) :
    (h'.connection p).queue.free = (h.connection p).queue.free - (given p).length := by
  rw [hs.connection p hp, Connection.free_taking]

variable {f : Frame} {targets : List Peer}

/-- A frame for which everybody has room costs nobody the place. -/
theorem Delivered.gone_eq_nil {gone : List Peer} (hd : Delivered h f targets gone h')
    (hq : h.Quiescent) (hroom : ∀ p ∈ targets, 0 < (h.connection p).queue.free) : gone = [] := by
  cases gone with
  | nil => rfl
  | cons d rest =>
    have hopen := hq.isOpen (hd.gone_registered d List.mem_cons_self)
    have hclosed := hd.overdue [] d rest rfl
    rw [Bool.eq_false_iff] at hclosed
    refine absurd ((Connection.isOpen_offerAll_iff _ hopen).mpr ?_) hclosed
    simp only [owedInTurn, List.flatMap_nil, List.append_nil]
    split
    next hin => exact hroom d hin
    next => exact Nat.zero_le _

end Served

/-- From `h` to `h'` there have been `n` deliveries, in which everybody has taken the frames
`given`, and nothing else has happened. -/
structure Undisturbed (given : Peer → List Frame) (n : Nat) (h h' : Hub) : Prop
    extends Served given h h' where
  limits : h'.limits = h.limits
  peer? : ∀ i, h'.peer? i = h.peer? i
  counters : h'.counters = { h.counters with events := h.counters.events + n }
  pending : h'.pending = h.pending
  draining : h'.draining = h.draining
  room : ∀ q ∈ h.registered, (given q).length ≤ (h.connection q).queue.free
  bystander : ∀ q, q.handle ∉ h.registered.map Peer.handle → h'.connection q = h.connection q

section Undisturbed

variable {h h' h'' : Hub} {given given' : Peer → List Frame} {n n' : Nat}

theorem Undisturbed.refl (h : Hub) : Undisturbed (fun _ => []) 0 h h where
  registered := rfl
  rooms := rfl
  evicted := rfl
  connection := fun _ _ => (Connection.taking_nil _).symm
  limits := rfl
  peer? := fun _ => rfl
  counters := rfl
  pending := rfl
  draining := rfl
  room := fun _ _ => Nat.zero_le _
  bystander := fun _ _ => rfl

theorem Undisturbed.trans (hu : Undisturbed given n h h') (hu' : Undisturbed given' n' h' h'') :
    Undisturbed (fun q => given q ++ given' q) (n + n') h h'' where
  toServed := hu.toServed.trans hu'.toServed
  limits := hu'.limits.trans hu.limits
  peer? := fun i => (hu'.peer? i).trans (hu.peer? i)
  counters := by
    rw [hu'.counters, hu.counters, Nat.add_assoc]
  pending := hu'.pending.trans hu.pending
  draining := hu'.draining.trans hu.draining
  room := by
    intro q hq
    have hfirst := hu.room q hq
    have hsecond := hu'.room q (hu.registered ▸ hq)
    rw [hu.free hq] at hsecond
    rw [List.length_append]
    omega
  bystander := by
    intro q hq
    rw [hu'.bystander q (hu.registered ▸ hq), hu.bystander q hq]

theorem Undisturbed.isOpen (hu : Undisturbed given n h h') (hq : h.Quiescent) {q : Peer}
    (hreg : q ∈ h.registered) : (h'.connection q).isOpen = true := by
  rw [hu.connection q hreg, Connection.isOpen_taking]
  exact hq.isOpen hreg

theorem Undisturbed.congr_given (hu : Undisturbed given n h h')
    (hgiven : ∀ q ∈ h.registered, given q = given' q) : Undisturbed given' n h h' where
  registered := hu.registered
  rooms := hu.rooms
  evicted := hu.evicted
  connection := fun q hreg => hgiven q hreg ▸ hu.connection q hreg
  limits := hu.limits
  peer? := hu.peer?
  counters := hu.counters
  pending := hu.pending
  draining := hu.draining
  room := fun q hreg => hgiven q hreg ▸ hu.room q hreg
  bystander := hu.bystander

/-- An address means the same connections as before. -/
theorem Undisturbed.audience_eq (hu : Undisturbed given n h h') (a : Address) :
    a.audience h' = a.audience h := by
  cases a with
  | everyone => exact hu.registered
  | viewers channel =>
    simp only [Address.audience, hu.registered]
    apply List.filter_congr
    intro q hq
    rw [hu.connection q hq]
    rfl
  | user u => simp only [Address.audience, hu.registered]
  | room channel exclude => simp only [Address.audience, hu.rooms]
  | one p => rfl

theorem Undisturbed.registered_address (hu : Undisturbed given n h h') {a : Address}
    (ha : a.Registered h) : a.Registered h' := by
  cases a with
  | one p =>
    simp only [Address.Registered, hu.registered]
    exact ha
  | everyone | viewers | user | room => trivial

theorem Delivered.undisturbed {f : Frame} {targets : List Peer}
    (hd : Delivered h f targets [] h') (hq : h.Quiescent) :
    Undisturbed (fun q => if q ∈ targets then [f] else []) 1 h h' := by
  have howed (q : Peer) : h.owedInTurn f targets [] q = if q ∈ targets then [f] else [] := by
    simp only [owedInTurn, List.flatMap_nil, List.append_nil]
  constructor
  case toServed =>
    constructor
    case registered => simp [hd.registered]
    case rooms =>
      rw [hd.rooms]
      exact Rooms.restrict_eq_self hq.rooms.inhabited fun _ _ _ _ => by simp
    case evicted => simp [hd.counters]
    case connection =>
      intro q hreg
      rw [hd.survivor_takes hq hreg List.not_mem_nil, howed]
  case limits => exact hd.limits
  case peer? => exact hd.peer?
  case counters => simp [hd.counters]
  case pending => exact hd.pending.trans hq.pending.symm
  case draining => exact hd.draining.trans hq.draining.symm
  case room =>
    intro q hreg
    rw [← howed q]
    exact hd.toCascade.length_le_free hq hd.listed hd.pending hreg List.not_mem_nil
  case bystander => exact hd.bystander

end Undisturbed

/-- Sends events to addresses, one after another. -/
def postAll (posts : List (Address × Event)) (h : Hub) : Hub :=
  posts.foldl (fun h a => h.post a.1 a.2) h

/-- The frames that `q` is sent by them. -/
def due (h : Hub) (posts : List (Address × Event)) (q : Peer) : List Frame :=
  posts.flatMap fun a => if q ∈ a.1.audience h then [.event a.2] else []

section Posts

variable {h : Hub} {posts : List (Address × Event)}

theorem due_cons (a : Address × Event) (posts : List (Address × Event)) (q : Peer) :
    h.due (a :: posts) q =
      (if q ∈ a.1.audience h then [.event a.2] else []) ++ h.due posts q := rfl

theorem Undisturbed.due_eq {h' : Hub} {given : Peer → List Frame} {n : Nat}
    (hu : Undisturbed given n h h') (posts : List (Address × Event)) :
    h'.due posts = h.due posts := by
  funext q
  simp only [due, hu.audience_eq]

theorem grows_post (a : Address) (e : Event) (h : Hub) :
    Grows (fun _ _ => True) h (h.post a e) := by
  rw [post_eq_deliver]
  exact grows_deliver _ _ h

theorem grows_postAll (posts : List (Address × Event)) (h : Hub) :
    Grows (fun _ _ => True) h (h.postAll posts) := by
  induction posts generalizing h with
  | nil => exact .refl _ h
  | cons a posts ih => exact (grows_post a.1 a.2 h).trans (ih _)

/-- Whoever is open in the end has been open before. -/
theorem Undisturbed.isOpen_post {given : Peer → List Frame} {n : Nat} {a : Address}
    {e : Event} (hu : Undisturbed given n h ((h.post a e).postAll posts)) (hq : h.Quiescent)
    {q : Peer} (hreg : q ∈ h.registered) : ((h.post a e).connection q).isOpen = true := by
  by_contra hclosed
  rw [Bool.not_eq_true] at hclosed
  have hend := hu.isOpen hq hreg
  rw [((grows_postAll posts (h.post a e)).connection q).not_open hclosed] at hend
  cases hend

/-- If all have room for what they are due, or if nobody refuses, nobody is disturbed. -/
theorem Quiescent.undisturbed_postAll (hq : h.Quiescent) (hposts : ∀ a ∈ posts, a.1.Registered h)
    (hcalm : HasRoom [] (h.due posts) h ∨ NoneRefuse [] h (h.postAll posts)) :
    Undisturbed (h.due posts) posts.length h (h.postAll posts) := by
  induction posts generalizing h with
  | nil => exact .refl h
  | cons a posts ih =>
    have ha := hposts a List.mem_cons_self
    obtain ⟨gone, hd⟩ := exists_delivered hq (.event a.2) (receivers_audience hq.toWellFormed ha)
    rw [← post_eq_deliver] at hd
    have hgrows := grows_postAll posts (h.post a.1 a.2)
    have hgone : gone = [] := by
      rcases hcalm with hroom | hopen
      · apply hd.gone_eq_nil hq
        intro q hin
        have hreg := (receivers_audience hq.toWellFormed ha).registered q hin
        have hlength := hroom q hreg List.not_mem_nil
        rw [due_cons, if_pos hin, List.length_append, List.length_singleton] at hlength
        omega
      · rw [List.eq_nil_iff_forall_not_mem]
        intro d hin
        have hclosed : ((h.post a.1 a.2).connection d).isOpen = false := by
          rw [hd.removed d hin]
          rfl
        have hend := hopen d (hd.gone_registered d hin) List.not_mem_nil
        exact Bool.false_ne_true
          (((hgrows.connection d).not_open hclosed).symm.trans hend)
    subst hgone
    have hfirst := hd.undisturbed hq
    have hrest : Undisturbed (h.due posts) posts.length (h.post a.1 a.2)
        ((h.post a.1 a.2).postAll posts) := by
      rw [← hfirst.due_eq posts]
      apply ih (hd.quiescent hq)
      · intro b hb
        exact hfirst.registered_address (hposts b (List.mem_cons_of_mem a hb))
      · rw [hfirst.due_eq posts]
        refine hcalm.imp (fun hroom q hreg hstays => ?_) fun hopen q hreg hstays => ?_
        · have hlength := hroom q (hfirst.registered ▸ hreg) hstays
          rw [due_cons, List.length_append] at hlength
          rw [hfirst.free (hfirst.registered ▸ hreg)]
          omega
        · exact hopen q (hfirst.registered ▸ hreg) hstays
    have hboth := hfirst.trans hrest
    rw [Nat.add_comm] at hboth
    exact hboth

end Posts

/-- Tells the other users of a room. -/
def roomStateFrame (channel : ChannelId) (users : List UserId) : Frame :=
  .event ⟨.voiceRoomState, .roomState ⟨channel, users⟩⟩

/-- What `q` is sent when `p` joins a room in which it finds `others`. -/
def joinNews (h : Hub) (p : Peer) (channel : ChannelId) (others : List UserId) (q : Peer) :
    List Frame :=
  let joined := joinedFrame channel p.user
  if q = p then [roomStateFrame channel others, joined]
  else if (channel, q) ∈ h.rooms.occupancy then [joined, joined]
  else [joined]

/-- What `q` is sent of a room that `p` goes out of. -/
def leaveNews (h : Hub) (p : Peer) (channel : ChannelId) (q : Peer) : List Frame :=
  let left := leftFrame channel p.user
  if (channel, q) ∈ h.rooms.occupancy ∧ q ≠ p then [left, left] else [left]

/-- What `q` is sent when `p` goes out of `channels`, one after the other. -/
def partingNews (h : Hub) (p : Peer) (channels : List ChannelId) (q : Peer) : List Frame :=
  channels.flatMap fun channel => h.leaveNews p channel q

/-- What a call comes to if nobody refuses a frame: there have been `n` deliveries, in which
everybody has taken the frames `given` behind those that waited, except for those in `leaving`, who
have been taken off the hub; the places in the rooms are now those in `places`, and all else is as
it was. -/
structure Passed (given : Peer → List Frame) (n : Nat) (leaving : List Peer) (places : Occupancy)
    (h h' : Hub) : Prop where
  limits : h'.limits = h.limits
  peer? : ∀ i, h'.peer? i = h.peer? i
  registered : h'.registered = h.registered.filter fun q => q ∉ leaving
  rooms : h'.rooms.Valid
  occupancy : h'.rooms.occupancy = places
  counters : h'.counters = { h.counters with events := h.counters.events + n }
  pending : h'.pending = h.pending
  draining : h'.draining = h.draining
  stays : ∀ q ∈ h.registered, q ∉ leaving → h'.connection q = (h.connection q).taking (given q)
  leaves : ∀ q ∈ leaving, h'.connection q =
    { h.connection q with state := .closed, queue := (h.connection q).queue.close }
  bystander : ∀ q, q.handle ∉ h.registered.map Peer.handle → h'.connection q = h.connection q

/-- From `h` to `h'` nobody refuses a frame just if all have room for those `given`, and then it
comes to what is said of a call that has passed. -/
def Announces (given : Peer → List Frame) (n : Nat) (leaving : List Peer) (places : Occupancy)
    (h h' : Hub) : Prop :=
  (NoneRefuse leaving h h' ↔ HasRoom leaving given h) ∧
    (NoneRefuse leaving h h' → Passed given n leaving places h h')

section Announces

variable {h h' : Hub} {given given' : Peer → List Frame} {n : Nat}

theorem Quiescent.mem_occupancy (hq : h.Quiescent) {c : ChannelId} {q : Peer} :
    (c, q) ∈ h.rooms.occupancy ↔ q ∈ h.rooms.members c :=
  hq.rooms.mem_occupancy

theorem Quiescent.announces (hq : h.Quiescent) {leaving : List Peer} {places : Occupancy}
    (hcalm : HasRoom leaving given h ∨ NoneRefuse leaving h h' →
      HasRoom leaving given h ∧ Passed given n leaving places h h') :
    Announces given n leaving places h h' := by
  refine ⟨⟨fun hopen => (hcalm (Or.inr hopen)).1, fun hroom q hreg hstays => ?_⟩,
    fun hopen => (hcalm (Or.inr hopen)).2⟩
  rw [(hcalm (Or.inl hroom)).2.stays q hreg hstays, Connection.isOpen_taking]
  exact hq.isOpen hreg

/-- What is done to the rooms beforehand does not show in the queues. -/
theorem Quiescent.announces_withRooms (hq : h.Quiescent) {rooms : Rooms} (hvalid : rooms.Valid)
    (hgiven : ∀ q ∈ h.registered, given q = given' q)
    (hcalm : HasRoom [] given { h with rooms } ∨ NoneRefuse [] { h with rooms } h' →
      Undisturbed given n { h with rooms } h') :
    Announces given' n [] rooms.occupancy h h' := by
  apply hq.announces
  intro hquiet
  have hu := hcalm (hquiet.imp_left fun hroom q hreg hstays => hgiven q hreg ▸ hroom q hreg hstays)
  refine ⟨fun q hreg _ => hgiven q hreg ▸ hu.room q hreg, ?_⟩
  constructor
  case limits => exact hu.limits
  case peer? => exact hu.peer?
  case registered => simp [hu.registered]
  case rooms => exact hu.rooms ▸ hvalid
  case occupancy => rw [hu.rooms]
  case counters => exact hu.counters
  case pending => exact hu.pending
  case draining => exact hu.draining
  case stays => exact fun q hreg _ => hgiven q hreg ▸ hu.connection q hreg
  case leaves => exact fun q hin => absurd hin List.not_mem_nil
  case bystander => exact hu.bystander

end Announces

/-- The events of a join, when the joiner is in the room. -/
def joinPosts (p : Peer) (channel : ChannelId) (users : List UserId) : List (Address × Event) :=
  [(.one p, ⟨.voiceRoomState, .roomState ⟨channel, users⟩⟩),
    (.room channel (some p.id), .joined channel p.user), (.everyone, .joined channel p.user)]

/-- The events of a leaving, when the one who leaves is out of the room. -/
def leavePosts (user : UserId) (channel : ChannelId) : List (Address × Event) :=
  [(.room channel none, .left channel user), (.everyone, .left channel user)]

/-- The joiner is told twice, and so are the others in the room. -/
theorem length_due_joinPosts_le (h : Hub) (p : Peer) (channel : ChannelId) (users : List UserId)
    (q : Peer) : (h.due (joinPosts p channel users) q).length ≤ 2 := by
  have hone (a : Address) (e : Event) :
      (if q ∈ a.audience h then [Frame.event e] else []).length ≤ 1 := by
    split
    · exact Nat.le_refl 1
    · exact Nat.zero_le 1
  have hfirst := hone (.one p) ⟨.voiceRoomState, .roomState ⟨channel, users⟩⟩
  have hroom := hone (.room channel (some p.id)) (.joined channel p.user)
  have hlast := hone .everyone (.joined channel p.user)
  simp only [joinPosts, due, List.flatMap_cons, List.flatMap_nil, List.append_nil,
    List.length_append]
  -- the joiner is passed over where the room is told
  by_cases heq : q = p
  · have hout : q ∉ (Address.room channel (some p.id)).audience h := by
      simp [Address.audience, heq]
    rw [if_neg hout, List.length_nil]
    omega
  · have hout : q ∉ (Address.one p).audience h := fun hin => heq (List.mem_singleton.mp hin)
    rw [if_neg hout, List.length_nil]
    omega

section Join

variable {h : Hub} (hq : h.Quiescent) {p : Peer} (hp : p ∈ h.registered) (channel : ChannelId)

include hq hp

/-- The joiner itself is not among the others of the room, so that it is told once of its coming. -/
theorem Quiescent.due_joinPosts {q : Peer} (hreg : q ∈ h.registered) :
    let others := ((h.rooms.occupancy.users channel).erase p.user).sort (· ≤ ·)
    Hub.due { h with rooms := ⟨Rooms.insert channel p h.rooms.rooms⟩ }
      (joinPosts p channel others) q = h.joinNews p channel others q := by
  intro others
  have hinside : q ∈ Rooms.members ⟨Rooms.insert channel p h.rooms.rooms⟩ channel ↔
      q = p ∨ q ∈ h.rooms.members channel ∧ q.id ≠ p.id := by
    rw [Rooms.mem_members_insert]
    simp only [true_and, forall_const]
  have hid : q.id = p.id ↔ q = p := ⟨hq.distinguishes hp q hreg, congrArg Peer.id⟩
  simp only [due, joinPosts, Address.audience, List.flatMap_cons, List.flatMap_nil,
    List.append_nil, List.mem_singleton, List.mem_filter, hinside, hreg, if_true, joinNews,
    hq.mem_occupancy, Option.some.injEq, decide_eq_true_eq, ne_eq, eq_comm (a := p.id), hid]
  by_cases heq : q = p
  · simp [heq, joinedFrame, roomStateFrame]
  · by_cases hin : q ∈ h.rooms.members channel
    · simp [heq, hin, joinedFrame]
    · simp [heq, hin, joinedFrame]

/-- One who joins is let in, and if nobody refuses a frame all is said that there is to say. -/
theorem Quiescent.undisturbed_joinRoom :
    let posts := joinPosts p channel
      (((h.rooms.occupancy.users channel).erase p.user).sort (· ≤ ·))
    let entered : Hub := { h with rooms := ⟨Rooms.insert channel p h.rooms.rooms⟩ }
    HasRoom [] (entered.due posts) entered ∨ NoneRefuse [] entered (h.joinRoom p channel).1 →
      Undisturbed (entered.due posts) 3 entered (h.joinRoom p channel).1 := by
  intro posts entered hcalm
  have hentered : entered.Quiescent := hq.enter hp channel
  have hposts : ∀ a ∈ posts, a.1.Registered entered := by
    simp [posts, joinPosts, Address.Registered, entered, hp]
  have hjoin : h.rooms.join channel p (h.connection p).queue.closed = (entered.rooms,
      some (((h.rooms.occupancy.users channel).erase p.user).sort (· ≤ ·))) := by
    rw [Rooms.join, hq.queue_open p hp, ← hq.rooms.others_eq_sort
      (hq.rooms_distinguishes (hq.distinguishes hp)) channel]
    rfl
  rw [joinRoom_eq hjoin] at hcalm ⊢
  dsimp only at hcalm ⊢
  split at hcalm
  next hrefused =>
    -- the list of users would have cost the joiner its place
    let sent := entered.post (.one p) ⟨.voiceRoomState, .roomState ⟨channel,
      ((h.rooms.occupancy.users channel).erase p.user).sort (· ≤ ·)⟩⟩
    have hclosed : (sent.connection p).isOpen = false := by
      simp only [Bool.and_eq_true, Bool.not_eq_true'] at hrefused
      exact hrefused.2
    rcases hcalm with hroom | hopen
    · have hall := hentered.undisturbed_postAll hposts (Or.inl hroom)
      exact absurd (hall.isOpen_post hentered hp) (Bool.eq_false_iff.mp hclosed)
    · have hend := hopen p hp List.not_mem_nil
      exact absurd hend (Bool.eq_false_iff.mp hclosed)
  next hkept =>
    rw [if_neg hkept]
    exact hentered.undisturbed_postAll hposts hcalm

end Join

section Leave

variable {h g : Hub} {p q : Peer} {channel : ChannelId}

/-- What is said of a leaving, as it comes to those who stay. -/
theorem due_leavePosts (hq : h.Quiescent) (hreg : q ∈ g.registered)
    (hmember : q ∈ g.rooms.members channel ↔ q ∈ h.rooms.members channel ∧ q ≠ p) :
    g.due (leavePosts p.user channel) q = h.leaveNews p channel q := by
  simp only [due, leavePosts, Address.audience, List.flatMap_cons, List.flatMap_nil,
    List.append_nil, ne_eq, reduceCtorEq, not_false_eq_true, decide_true, List.filter_true,
    hmember, hreg, if_true, leaveNews, hq.mem_occupancy]
  split
  · rfl
  · rfl

theorem Quiescent.undisturbed_leaveRoom (hq : h.Quiescent)
    (hin : p ∈ h.rooms.members channel) :
    let posts := leavePosts p.user channel
    let left : Hub := { h with rooms := (h.rooms.leave channel p.id).1 }
    HasRoom [] (left.due posts) left ∨ NoneRefuse [] left (h.leaveRoom p channel).1 →
      Undisturbed (left.due posts) 2 left (h.leaveRoom p channel).1 := by
  intro posts left hcalm
  have hcontains : (h.rooms.leave channel p.id).2 = true :=
    List.any_eq_true.mpr ⟨p, hin, beq_self_eq_true p.id⟩
  have hposts : ∀ a ∈ posts, a.1.Registered left := by
    simp [posts, leavePosts, Address.Registered]
  have hleave : (h.leaveRoom p channel).1 = left.postAll posts := by
    simp only [Hub.leaveRoom, hcontains, if_true]
    exact announceLeft_eq_post p.user channel left
  rw [hleave] at hcalm ⊢
  exact (hq.exit channel p.id).undisturbed_postAll hposts hcalm

end Leave

section Part

variable {h : Hub} {p : Peer}

theorem foldl_announceLeft_eq_postAll (user : UserId) (channels : List ChannelId) (h : Hub) :
    channels.foldl (fun h channel => announceLeft deliver user channel h) h =
      h.postAll (channels.flatMap (leavePosts user)) := by
  induction channels generalizing h with
  | nil => rfl
  | cons channel channels ih =>
    rw [List.foldl_cons, ih, announceLeft_eq_post, List.flatMap_cons, postAll, postAll,
      List.foldl_append]
    rfl

theorem due_flatMap (posts : ChannelId → List (Address × Event)) (channels : List ChannelId)
    (q : Peer) : h.due (channels.flatMap posts) q =
      channels.flatMap fun channel => h.due (posts channel) q :=
  List.flatMap_assoc

theorem shut_eq (c : Connection) :
    c.shut = { c with state := .closed, queue := c.queue.close } := by
  rw [Connection.shut, Connection.beginClose]
  split
  · rfl
  · rfl

theorem length_flatMap_leavePosts (user : UserId) (channels : List ChannelId) :
    (channels.flatMap (leavePosts user)).length = 2 * channels.length := by
  simp only [leavePosts, List.length_flatMap, List.length_cons, List.length_nil, List.map_const',
    List.sum_replicate_nat]
  omega

end Part

section Unregister

variable {h : Hub} (hq : h.Quiescent) {p : Peer} (hp : p ∈ h.registered)

include hq hp

/-- What is said of one who goes for good, as it comes to those who stay. -/
theorem Quiescent.due_parting {q : Peer} (hreg : q ∈ (h.detach p).registered) :
    (h.detach p).due ((h.rooms.roomsOf p).flatMap (leavePosts p.user)) q =
      h.partingNews p (h.rooms.roomsOf p) q := by
  rw [due_flatMap, partingNews]
  apply List.flatMap_congr
  intro channel _
  exact due_leavePosts hq hreg (mem_detach_members hq.toWellFormed (hq.distinguishes hp))

theorem Quiescent.unregister_eq_postAll :
    (h.unregister p).1 = ((h.detach p).postAll ((h.rooms.roomsOf p).flatMap
      (leavePosts p.user))).update p Connection.markClosed := by
  rw [unregister_eq hq.toWellFormed (hq.distinguishes hp), foldl_announceLeft_eq_postAll]

theorem Quiescent.connection_unregister {q : Peer} (hne : q.handle ≠ p.handle) :
    (h.unregister p).1.connection q = ((h.detach p).postAll ((h.rooms.roomsOf p).flatMap
      (leavePosts p.user))).connection q := by
  rw [hq.unregister_eq_postAll hp, connection_update_of_ne p q _ _ hne]

/-- The announcements are made to those who stay, of one who is out already. -/
theorem Quiescent.undisturbed_parting
    (hcalm : HasRoom [p] (h.partingNews p (h.rooms.roomsOf p)) h ∨
      NoneRefuse [p] h (h.unregister p).1) :
    Undisturbed (h.partingNews p (h.rooms.roomsOf p)) (2 * (h.rooms.roomsOf p).length) (h.detach p)
      ((h.detach p).postAll ((h.rooms.roomsOf p).flatMap (leavePosts p.user))) := by
  have hstays {q : Peer} (hreg : q ∈ (h.detach p).registered) :
      q ∈ h.registered ∧ q ∉ [p] ∧ q.handle ≠ p.handle := by
    obtain ⟨hold, hne⟩ := (mem_detach_registered (hq.distinguishes hp)).mp hreg
    exact ⟨hold, List.not_mem_cons_of_ne_of_not_mem hne List.not_mem_nil, hq.handle_ne hp hold hne⟩
  rw [← length_flatMap_leavePosts p.user]
  refine Undisturbed.congr_given ?_ fun q hreg => hq.due_parting hp hreg
  apply (hq.detach hp).undisturbed_postAll
  · intro a ha
    obtain ⟨channel, _, hin⟩ := List.mem_flatMap.mp ha
    simp only [leavePosts, List.mem_cons, List.not_mem_nil, or_false] at hin
    rcases hin with rfl | rfl
    · trivial
    · trivial
  · refine hcalm.imp (fun hroom q hreg _ => ?_) fun hopen q hreg _ => ?_
    · obtain ⟨hold, hout, hne⟩ := hstays hreg
      rw [hq.due_parting hp hreg, detach_connection_of_ne hne]
      exact hroom q hold hout
    · obtain ⟨hold, hout, hne⟩ := hstays hreg
      rw [← hq.connection_unregister hp hne]
      exact hopen q hold hout

end Unregister

section Calls

variable {h : Hub} (hq : h.Quiescent) {p : Peer} (hp : p ∈ h.registered) (channel : ChannelId)

include hq hp

theorem Quiescent.announces_joinRoom :
    let others := ((h.rooms.occupancy.users channel).erase p.user).sort (· ≤ ·)
    Announces (h.joinNews p channel others) 3 [] (insert (channel, p) h.rooms.occupancy)
      h (h.joinRoom p channel).1 := by
  intro others
  have hplaces := hq.rooms.occupancy_enter (hq.rooms_distinguishes (hq.distinguishes hp)) channel
  rw [Finset.insert_eq, ← hplaces]
  exact hq.announces_withRooms (hq.rooms.insert channel p)
    (fun q hreg => hq.due_joinPosts hp channel hreg) (hq.undisturbed_joinRoom hp channel)

theorem Quiescent.announces_leaveRoom (hin : p ∈ h.rooms.members channel) :
    Announces (h.leaveNews p channel) 2 [] (h.rooms.occupancy.erase (channel, p))
      h (h.leaveRoom p channel).1 := by
  have hd := hq.rooms_distinguishes (hq.distinguishes hp)
  rw [← hq.rooms.occupancy_leave hd channel]
  refine hq.announces_withRooms (hq.rooms.leave channel p.id) (fun q hreg => ?_)
    (hq.undisturbed_leaveRoom hin)
  refine due_leavePosts (g := { h with rooms := (h.rooms.leave channel p.id).1 }) hq hreg ?_
  rw [Rooms.mem_members_leave hq.rooms]
  apply and_congr_right
  intro hmem
  have hid : q.id = p.id ↔ q = p := ⟨hd.eq_of_mem hmem, congrArg Peer.id⟩
  simp only [ne_eq, not_true_eq_false, false_or, hid]

theorem Quiescent.announces_unregister :
    Announces (h.partingNews p (h.rooms.roomsOf p)) (2 * (h.rooms.roomsOf p).length) [p]
      {s ∈ h.rooms.occupancy | s.2 ≠ p} h (h.unregister p).1 := by
  have hd := hq.distinguishes hp
  have hdetach : ∀ q ∈ h.registered, q ∉ [p] →
      q ∈ (h.detach p).registered ∧ q.handle ≠ p.handle := by
    intro q hreg hout
    have hne := List.ne_of_not_mem_cons hout
    exact ⟨(mem_detach_registered hd).mpr ⟨hreg, hne⟩, hq.handle_ne hp hreg hne⟩
  apply hq.announces
  intro hquiet
  have hu := hq.undisturbed_parting hp hquiet
  refine ⟨fun q hreg hout => ?_, ?_⟩
  · obtain ⟨hin, hne⟩ := hdetach q hreg hout
    have hroom := hu.room q hin
    rwa [detach_connection_of_ne hne] at hroom
  have heq := hq.unregister_eq_postAll hp
  have hrooms : (h.unregister p).1.rooms = (h.rooms.leaveAll p.id).1 := by
    rw [heq]
    exact hu.rooms
  have hpeer : (h.detach p).Knows p := (detach_peer? p.handle).trans (hq.known p hp)
  have hself : p.handle ∉ (h.detach p).registered.map Peer.handle := by
    rw [hpeer.mem_handles_iff (hq.detach hp).known, mem_detach_registered hd]
    exact fun hin => hin.2 rfl
  constructor
  case limits => exact heq ▸ hu.limits
  case peer? =>
    intro i
    rw [heq, peer?_update p Connection.markClosed _ (fun _ => rfl), hu.peer?, detach_peer?]
  case registered =>
    rw [heq]
    exact hu.registered.trans (detach_registered hd)
  case rooms => exact hrooms ▸ Rooms.leaveAll_rooms h.rooms p.id ▸ hq.rooms.restrict _
  case occupancy =>
    rw [hrooms, hq.rooms.occupancy_leaveAll (hq.rooms_distinguishes hd)]
  case counters =>
    rw [heq]
    exact hu.counters
  case pending => exact heq ▸ hu.pending
  case draining => exact heq ▸ hu.draining
  case stays =>
    intro q hreg hout
    obtain ⟨hin, hne⟩ := hdetach q hreg hout
    rw [hq.connection_unregister hp hne, hu.connection q hin, detach_connection_of_ne hne]
  case leaves =>
    intro q hin
    rw [List.mem_singleton.mp hin, heq,
      connection_update_of_handle_eq p p Connection.markClosed _ rfl rfl, hu.bystander p hself,
      detach_connection_self, ← shut_eq]
    rfl
  case bystander =>
    intro q hout
    have hne : q.handle ≠ p.handle := fun hsame => hout (hsame ▸ List.mem_map_of_mem hp)
    rw [hq.connection_unregister hp hne, hu.bystander, detach_connection_of_ne hne]
    intro hin
    obtain ⟨r, hr, hsame⟩ := List.mem_map.mp hin
    exact hout (hsame ▸ List.mem_map_of_mem ((mem_detach_registered hd).mp hr).1)

end Calls

/-- What a join, a leaving and a parting make of a hub at rest, if they cost nobody the place: the
others in the room hear of it twice, everybody else once, and a joiner hears first who is there. -/
theorem voice_calls_announced {h : Hub} (hq : h.Quiescent) {p : Peer} (hp : p ∈ h.registered)
    (channel : ChannelId) :
    let others := ((h.rooms.occupancy.users channel).erase p.user).sort (· ≤ ·)
    let channels := (h.rooms.occupancy.channelsOf p).sort (· ≤ ·)
    Announces (h.joinNews p channel others) 3 [] (insert (channel, p) h.rooms.occupancy)
        h (h.joinRoom p channel).1 ∧
      (p ∈ h.rooms.members channel →
        Announces (h.leaveNews p channel) 2 [] (h.rooms.occupancy.erase (channel, p))
          h (h.leaveRoom p channel).1) ∧
      Announces (h.partingNews p channels) (2 * channels.length) [p]
        {s ∈ h.rooms.occupancy | s.2 ≠ p} h (h.unregister p).1 := by
  intro others channels
  refine ⟨hq.announces_joinRoom hp channel, fun hin => hq.announces_leaveRoom hp channel hin, ?_⟩
  rw [show channels = h.rooms.roomsOf p from (hq.rooms.roomsOf_eq_sort p).symm]
  exact hq.announces_unregister hp

/-- Ann is in two rooms with one device, and in one of them with another; Bob is in that one too. -/
theorem bob_hears_of_ann :
    let h := run (new ⟨16, 8⟩) [.connect "ann", .connect "ann", .connect "bob", .join 0 "hall",
      .join 0 "attic", .join 1 "hall", .join 2 "hall"]
    let ann : Peer := ⟨0, .fresh 0, "ann"⟩
    let bob : Peer := ⟨2, .fresh 2, "bob"⟩
    ((h.leaveRoom ann "hall").1.connection bob =
        (h.connection bob).taking [leftFrame "hall" "ann", leftFrame "hall" "ann"]) ∧
      ((h.joinRoom ann "hall").1.connection ann = (h.connection ann).taking
        [roomStateFrame "hall" ["bob"], joinedFrame "hall" "ann"]) ∧
      (h.unregister ann).1.connection bob = (h.connection bob).taking
        [leftFrame "attic" "ann", leftFrame "hall" "ann", leftFrame "hall" "ann"] := by
  intro h ann bob
  have hops : ∀ op ∈ [Operation.connect "ann", .connect "ann", .connect "bob", .join 0 "hall",
      .join 0 "attic", .join 1 "hall", .join 2 "hall"], op.throughHub = true := by decide
  have hq : h.Quiescent := ((consistent_new ⟨16, 8⟩).run hops).toQuiescent
  have hann : ann ∈ h.registered := by decide +kernel
  have hbob : bob ∈ h.registered := by decide +kernel
  obtain ⟨hjoin, hleave, hpart⟩ := voice_calls_announced hq hann "hall"
  refine ⟨?_, ?_, ?_⟩
  · rw [((hleave (by decide +kernel)).2 (by decide +kernel)).stays bob hbob List.not_mem_nil]
    decide +kernel
  · rw [(hjoin.2 (by decide +kernel)).stays ann hann List.not_mem_nil]
    decide +kernel
  · rw [← hq.rooms.roomsOf_eq_sort] at hpart
    rw [(hpart.2 (by decide +kernel)).stays bob hbob (by decide)]
    decide +kernel

end ChatHub.Hub
