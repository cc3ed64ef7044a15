import ChatHub.Proofs.Hub.Removal
/-!
Two hubs that differ in nothing but the frames that wait in their queues.  No decision of a delivery
looks at a frame, and so the two go on in lockstep: the same queues take what is sent, the same
connections refuse it, and the same removals follow.
-/

namespace ChatHub

/-- A connection and its twin, which has got `σ f` wherever this one has got `f` since its queue was
`old`. -/
def Connection.Twins (σ : Frame → Frame) (old : List Frame) (c c' : Connection) : Prop :=
  ∃ news, c.queue.waiting = old ++ news ∧
    c' = { c with queue := { c.queue with waiting := old ++ news.map σ } }

namespace Connection.Twins

variable {σ : Frame → Frame} {old : List Frame} {c c' : Connection}

theorem refl (σ : Frame → Frame) (c : Connection) : Twins σ c.queue.waiting c c :=
  ⟨[], (List.append_nil _).symm, by rw [List.map_nil, List.append_nil]⟩

theorem isOpen_eq (ht : Twins σ old c c') : c'.isOpen = c.isOpen := by
  obtain ⟨_, _, rfl⟩ := ht
  rfl

theorem free_eq (ht : Twins σ old c c') : c'.queue.free = c.queue.free := by
  obtain ⟨news, hnews, rfl⟩ := ht
  simp only [Queue.free, hnews, List.length_append, List.length_map]

theorem beginClose (ht : Twins σ old c c') : Twins σ old c.beginClose c'.beginClose := by
  have hopen := ht.isOpen_eq
  obtain ⟨news, hnews, rfl⟩ := ht
  refine ⟨news, (congrArg Queue.waiting (queue_beginClose c)).trans hnews, ?_⟩
  cases hc : c.isOpen with
  | false => simp only [Connection.beginClose, hopen, hc, Bool.false_eq_true, if_false]
  | true => simp only [Connection.beginClose, hopen, hc, if_true]

theorem closeQueue (ht : Twins σ old c c') : Twins σ old c.closeQueue c'.closeQueue := by
  obtain ⟨news, hnews, rfl⟩ := ht
  exact ⟨news, hnews, rfl⟩

theorem markClosed (ht : Twins σ old c c') : Twins σ old c.markClosed c'.markClosed := by
  obtain ⟨news, hnews, rfl⟩ := ht
  exact ⟨news, hnews, rfl⟩

theorem taking (ht : Twins σ old c c') (f : Frame) :
    Twins σ old (c.taking [f]) (c'.taking [σ f]) := by
  obtain ⟨news, hnews, rfl⟩ := ht
  refine ⟨news ++ [f], ?_, ?_⟩
  · simp only [Connection.taking, hnews, List.append_assoc]
  · simp only [Connection.taking, List.map_append, List.map_cons, List.map_nil, List.append_assoc]

/-- Whether a frame is taken does not depend on the frame. -/
theorem offer (ht : Twins σ old c c') (f : Frame) : Twins σ old (c.offer f) (c'.offer (σ f)) := by
  cases hopen : c.isOpen with
  | false =>
    rw [offer_of_not_open f hopen, offer_of_not_open (σ f) (ht.isOpen_eq.trans hopen)]
    exact ht
  | true =>
    have hopen' := ht.isOpen_eq.trans hopen
    by_cases hfull : c.queue.free = 0
    · rw [offer_of_free_eq_zero f hopen hfull,
        offer_of_free_eq_zero (σ f) hopen' (ht.free_eq.trans hfull)]
      exact ht.beginClose
    · rw [offer_of_free_pos f hopen (Nat.pos_of_ne_zero hfull),
        offer_of_free_pos (σ f) hopen' (ht.free_eq ▸ Nat.pos_of_ne_zero hfull)]
      exact ht.taking f

end Connection.Twins

namespace Hub

/-- Two hubs that have come from `h₀` and are alike in everything, but that the queues of one have
got `σ f` wherever those of the other have got `f`. -/
structure Lockstep (σ : Frame → Frame) (h₀ h h' : Hub) : Prop where
  same : ∃ table, h' = { h with table }
  length : h'.table.length = h.table.length
  connection : ∀ p, Connection.Twins σ (h₀.connection p).queue.waiting (h.connection p)
    (h'.connection p)

namespace Lockstep

variable {σ : Frame → Frame} {h₀ h h' : Hub}

theorem refl (σ : Frame → Frame) (h : Hub) : Lockstep σ h h h :=
  ⟨⟨h.table, rfl⟩, rfl, fun p => .refl σ (h.connection p)⟩

theorem update (hl : Lockstep σ h₀ h h') (p : Peer) {f g : Connection → Connection}
    (hf : f .absent = .absent) (hg : g .absent = .absent)
    (hfg : ∀ old c c', Connection.Twins σ old c c' → Connection.Twins σ old (f c) (g c')) :
    Lockstep σ h₀ (h.update p f) (h'.update p g) := by
  obtain ⟨table, rfl⟩ := hl.same
  refine ⟨⟨_, rfl⟩, ?_, fun q => ?_⟩
  · simp only [Hub.update, List.length_modify]
    exact hl.length
  · by_cases heq : q.handle = p.handle
    · rw [connection_update_of_handle_eq p q f h heq hf,
        connection_update_of_handle_eq p q g _ heq hg]
      exact hfg _ _ _ (hl.connection q)
    · rw [connection_update_of_ne p q f h heq, connection_update_of_ne p q g _ heq]
      exact hl.connection q

theorem count (hl : Lockstep σ h₀ h h') (f : Counters → Counters) :
    Lockstep σ h₀ (h.count f) (h'.count f) := by
  obtain ⟨table, rfl⟩ := hl.same
  exact ⟨⟨table, rfl⟩, hl.length, hl.connection⟩

theorem setPending (hl : Lockstep σ h₀ h h') (ps : List Peer) :
    Lockstep σ h₀ { h with pending := ps } { h' with pending := ps } := by
  obtain ⟨table, rfl⟩ := hl.same
  exact ⟨⟨table, rfl⟩, hl.length, hl.connection⟩

theorem setDraining (hl : Lockstep σ h₀ h h') (b : Bool) :
    Lockstep σ h₀ { h with draining := b } { h' with draining := b } := by
  obtain ⟨table, rfl⟩ := hl.same
  exact ⟨⟨table, rfl⟩, hl.length, hl.connection⟩

theorem registered_eq (hl : Lockstep σ h₀ h h') : h'.registered = h.registered := by
  obtain ⟨_, rfl⟩ := hl.same
  rfl

theorem rooms_eq (hl : Lockstep σ h₀ h h') : h'.rooms = h.rooms := by
  obtain ⟨_, rfl⟩ := hl.same
  rfl

theorem pending_eq (hl : Lockstep σ h₀ h h') : h'.pending = h.pending := by
  obtain ⟨_, rfl⟩ := hl.same
  rfl

theorem draining_eq (hl : Lockstep σ h₀ h h') : h'.draining = h.draining := by
  obtain ⟨_, rfl⟩ := hl.same
  rfl

/-- The same queues take the frame, and the same connections refuse it. -/
theorem push (hl : Lockstep σ h₀ h h') (f : Frame) (ps : List Peer) :
    Lockstep σ h₀ (push f ps h).hub (push (σ f) ps h').hub ∧
      (push (σ f) ps h').delivered = (push f ps h).delivered ∧
      (push (σ f) ps h').dead = (push f ps h).dead := by
  induction ps generalizing h h' with
  | nil => exact ⟨hl, rfl, rfl⟩
  | cons p ps ih =>
    have hfirst : Lockstep σ h₀ (h.update p (Connection.offer f))
        (h'.update p (Connection.offer (σ f))) :=
      hl.update p (offer_absent f) (offer_absent (σ f)) fun _ _ _ ht => ht.offer f
    obtain ⟨hrest, hdelivered, hdead⟩ := ih hfirst
    have hopen := (hl.connection p).isOpen_eq
    have hfree := (hl.connection p).free_eq
    rw [push_cons f, push_cons (σ f), hopen, hfree]
    refine ⟨hrest, ?_, ?_⟩
    · rw [hdelivered]
    · rw [hdead]

theorem offer (hl : Lockstep σ h₀ h h') (f : Frame) (ts : List Peer) :
    Lockstep σ h₀ (offer f ts h).1 (offer (σ f) ts h').1 := by
  obtain ⟨hpushed, _, hdead⟩ := hl.push f ts
  have hpending : (Hub.push f ts h).dead.reverse ++ (Hub.push f ts h).hub.pending =
      (Hub.push (σ f) ts h').dead.reverse ++ (Hub.push (σ f) ts h').hub.pending := by
    rw [hdead, hpushed.pending_eq]
  simp only [Hub.offer, record, ← hpending]
  exact (hpushed.count _).setPending _

theorem detach (hl : Lockstep σ h₀ h h') (p : Peer) :
    Lockstep σ h₀ (h.detach p) (h'.detach p) := by
  have hclosing := hl.update p (f := fun c => c.beginClose.closeQueue)
    (g := fun c => c.beginClose.closeQueue) rfl rfl fun _ _ _ ht => ht.beginClose.closeQueue
  obtain ⟨table, rfl⟩ := hl.same
  exact ⟨⟨_, rfl⟩, hclosing.length, hclosing.connection⟩

section Left

variable (hleft : ∀ channel user, σ (leftFrame channel user) = leftFrame channel user)

include hleft

/-- An announcement is the same for both. -/
theorem offerLeft (hl : Lockstep σ h₀ h h') (channel : ChannelId) (user : UserId)
    {ts ts' : List Peer} (hts : ts' = ts) :
    Lockstep σ h₀ (Hub.offer (leftFrame channel user) ts h).1
      (Hub.offer (leftFrame channel user) ts' h').1 := by
  have hoffered := hl.offer (leftFrame channel user) ts
  rw [hleft] at hoffered
  exact hts ▸ hoffered

theorem announceLeft (hl : Lockstep σ h₀ h h') (user : UserId) (channel : ChannelId) :
    Lockstep σ h₀ (announceLeft Hub.offer user channel h)
      (Hub.announceLeft Hub.offer user channel h') := by
  have hroom := hl.offerLeft hleft channel user
    (congrArg (Rooms.members · channel) hl.rooms_eq)
  exact hroom.offerLeft hleft channel user hroom.registered_eq

theorem announceAll (hl : Lockstep σ h₀ h h') (user : UserId) (channels : List ChannelId) :
    Lockstep σ h₀
      (channels.foldl (fun h channel => Hub.announceLeft Hub.offer user channel h) h)
      (channels.foldl (fun h channel => Hub.announceLeft Hub.offer user channel h) h') := by
  induction channels generalizing h h' with
  | nil => exact hl
  | cons channel channels ih => exact ih (hl.announceLeft hleft user channel)

theorem evict (hl : Lockstep σ h₀ h h') (p : Peer) :
    Lockstep σ h₀ (evict p h) (Hub.evict p h') := by
  have hannounced := (hl.detach p).announceAll hleft p.user (h.rooms.leaveAll p.id).2
  have hremoved : Lockstep σ h₀ (remove Hub.offer p h).1 (remove Hub.offer p h').1 := by
    rw [remove_eq, remove_eq, hl.rooms_eq]
    exact hannounced.update p rfl rfl fun _ _ _ ht => ht.markClosed
  have hregistered : h'.isRegistered p = h.isRegistered p := by
    simp only [isRegistered, hl.registered_eq]
  have hflag : (remove Hub.offer p h').2 = (remove Hub.offer p h).2 := hregistered
  simp only [Hub.evict, hflag]
  split
  next => exact hremoved.count _
  next => exact hremoved

theorem evictPending (hl : Lockstep σ h₀ h h') :
    Lockstep σ h₀ h.evictPending h'.evictPending := by
  induction h using Hub.evictPending.induct generalizing h' with
  | case1 h hnil =>
    rw [evictPending_of_nil hnil, evictPending_of_nil (hl.pending_eq.trans hnil)]
    exact hl
  | case2 h p rest hcons ih =>
    rw [evictPending_of_cons hcons, evictPending_of_cons (hl.pending_eq.trans hcons)]
    exact ih ((hl.setPending rest).evict hleft p)

theorem drain (hl : Lockstep σ h₀ h h') : Lockstep σ h₀ h.drain h'.drain := by
  rw [Hub.drain, Hub.drain, hl.draining_eq]
  split
  next => exact hl
  next => exact ((hl.setDraining true).evictPending hleft).setDraining false

/-- A delivery, with all the removals that it sets off. -/
theorem deliver (hl : Lockstep σ h₀ h h') (f : Frame) (ts : List Peer) :
    Lockstep σ h₀ (deliver f ts h).1 (Hub.deliver (σ f) ts h').1 ∧
      (Hub.deliver (σ f) ts h').2 = (Hub.deliver f ts h).2 := by
  obtain ⟨_, hdelivered, hdead⟩ := hl.push f ts
  have hrecorded := hl.offer f ts
  refine ⟨?_, hdelivered⟩
  simp only [Hub.deliver, hdead]
  split
  next => exact hrecorded
  next => exact hrecorded.drain hleft

end Left

end Lockstep

end Hub

end ChatHub
