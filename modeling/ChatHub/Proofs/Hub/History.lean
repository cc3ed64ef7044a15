import ChatHub.Proofs.Hub.Growth
/-!
What a history puts into the queues, step by step.  One step is seen as what it adds behind the
frames that waited before it, so that frames which have been taken since are not lost sight of.
-/

namespace ChatHub.Hub

/-- The frames behind those that waited for `x` before. -/
def gained (h h' : Hub) (x : Peer) : List Frame :=
  (h'.connection x).queue.waiting.drop (h.connection x).queue.waiting.length

/-- All frames that a history puts into the queue of `x`. -/
def arrivals (x : Peer) : Hub → List Operation → List Frame
  | _, [] => []
  | h, op :: ops => gained h (h.perform op).1 x ++ arrivals x (h.perform op).1 ops

section Gained

variable {h h' : Hub} {x : Peer}

theorem gained_eq_of_append {fs : List Frame}
    (hfs : (h'.connection x).queue.waiting = (h.connection x).queue.waiting ++ fs) :
    gained h h' x = fs := by
  rw [gained, hfs, List.drop_left]

theorem gained_eq_nil_of_le
    (hle : (h'.connection x).queue.waiting.length ≤ (h.connection x).queue.waiting.length) :
    gained h h' x = [] :=
  List.drop_eq_nil_of_le hle

theorem Grows.waiting_eq {new : Nat → Frame → Prop} (hg : Grows new h h') (x : Peer) :
    (h'.connection x).queue.waiting = (h.connection x).queue.waiting ++ gained h h' x := by
  obtain ⟨fs, hfs, _⟩ := (hg.connection x).waiting
  rw [gained_eq_of_append hfs, hfs]

theorem Grows.of_mem_gained {new : Nat → Frame → Prop} (hg : Grows new h h') {f : Frame}
    (hf : f ∈ gained h h' x) : new x.handle f := by
  obtain ⟨fs, hfs, hnew⟩ := (hg.connection x).waiting
  rw [gained_eq_of_append hfs] at hf
  exact hnew f hf

theorem gained_trans {new new' : Nat → Frame → Prop} {h'' : Hub} (hg : Grows new h h')
    (hg' : Grows new' h' h'') (x : Peer) :
    gained h h'' x = gained h h' x ++ gained h' h'' x := by
  apply gained_eq_of_append
  rw [hg'.waiting_eq x, hg.waiting_eq x, List.append_assoc]

end Gained

section Perform

variable {h : Hub} {i : Nat} {p : Peer} {text : String}

theorem perform_handle (hp : h.peer? i = some p) (c : Command) :
    h.perform (.handle i c) = (h.handle p c, .done) := by
  simp only [perform, withPeer, hp]

/-- A text is as good as the command that it says. -/
theorem perform_handleText_of_ok {c : Command} (hdecode : Command.decode text = .ok c) :
    h.perform (.handleText i text) = h.perform (.handle i c) := by
  simp only [perform, handleText, hdecode, Except.map]

theorem perform_handleText_of_error (hp : h.peer? i = some p) {e : HubError}
    (hdecode : Command.decode text = .error e) :
    h.perform (.handleText i text) = (h, .failed e) := by
  simp only [perform, withPeer, hp, handleText, hdecode, Except.map]

end Perform

section Run

variable (h : Hub)

theorem run_append (ops ops' : List Operation) : run h (ops ++ ops') = run (run h ops) ops' :=
  List.foldl_append

theorem run_concat (ops : List Operation) (op : Operation) :
    run h (ops ++ [op]) = ((run h ops).perform op).1 :=
  run_append h ops [op]

/-- A frame that arrives does so in one of the steps. -/
theorem exists_step_of_mem_arrivals {x : Peer} {ops : List Operation} {f : Frame}
    (hf : f ∈ arrivals x h ops) :
    ∃ before op after, ops = before ++ op :: after ∧
      f ∈ gained (run h before) ((run h before).perform op).1 x := by
  induction ops generalizing h with
  | nil => exact absurd hf List.not_mem_nil
  | cons op ops ih =>
    rcases List.mem_append.mp hf with hfirst | hlater
    · exact ⟨[], op, ops, rfl, hfirst⟩
    · obtain ⟨before, op', after, rfl, hstep⟩ := ih _ hlater
      exact ⟨op :: before, op', after, rfl, hstep⟩

end Run

/-- Every connection is in the table under its number, and those that are registered have names
of their own and are past their beginning. -/
structure Keyed (h : Hub) : Prop where
  numbered : ∀ i p, h.peer? i = some p → p.handle = i
  known : ∀ p ∈ h.registered, h.Knows p
  ids_nodup : (h.registered.map Peer.id).Nodup
  started : ∀ p ∈ h.registered, (h.connection p).state ≠ .connecting

/-- A step of a history.  Nobody is forgotten or started over, and what has been put into the queues
is among the frames that `new` allows; `reading` tells whether it is a step of a reader, who puts
in nothing. -/
structure Steps (reading : Bool) (new : Nat → Frame → Prop) (h h' : Hub) : Prop where
  keyed : h'.Keyed
  peer? : ∀ i p, h.peer? i = some p → h'.peer? i = some p
  waiting : reading = false → ∀ x,
    (h'.connection x).queue.waiting = (h.connection x).queue.waiting ++ gained h h' x
  reads : reading = true → ∀ x, gained h h' x = []
  new : ∀ x f, f ∈ gained h h' x → new x.handle f

theorem rank_pos {s : Lifecycle} : 0 < s.rank ↔ s ≠ .connecting := by
  cases s with
  | connecting => decide
  | active => decide
  | closing => decide
  | closed => decide

namespace Keyed

variable {h : Hub} (hk : h.Keyed)

include hk

theorem knows_of_peer? {i : Nat} {p : Peer} (hp : h.peer? i = some p) : h.Knows p := by
  rw [Knows, hk.numbered i p hp]
  exact hp

theorem registered_nodup : h.registered.Nodup := hk.ids_nodup.of_map Peer.id

/-- Of those that are registered, the open ones are the active ones. -/
theorem isOpen_iff {p : Peer} (hp : p ∈ h.registered) :
    (h.connection p).isOpen = true ↔ (h.connection p).state = .active := by
  have hstarted := hk.started p hp
  rw [Connection.isOpen]
  cases hstate : (h.connection p).state with
  | connecting => exact absurd hstate hstarted
  | active => decide
  | closing => decide
  | closed => decide

theorem of_grows {new : Nat → Frame → Prop} {h' : Hub} (hg : Grows new h h') : h'.Keyed where
  numbered := fun i p hp => hk.numbered i p ((hg.peer? i).symm.trans hp)
  known := fun p hp => (hg.peer? p.handle).trans (hk.known p (hg.registered.subset hp))
  ids_nodup := hk.ids_nodup.sublist (hg.registered.map _)
  started := by
    intro p hp
    have hbefore := rank_pos.mpr (hk.started p (hg.registered.subset hp))
    exact rank_pos.mp (Nat.lt_of_lt_of_le hbefore (hg.connection p).rank_le)

theorem steps_of_grows {new : Nat → Frame → Prop} {h' : Hub} (hg : Grows new h h') :
    Steps false new h h' where
  keyed := hk.of_grows hg
  peer? := fun i _ hp => (hg.peer? i).trans hp
  waiting := fun _ => hg.waiting_eq
  reads := by simp
  new := fun _ _ hf => hg.of_mem_gained hf

theorem update {p : Peer} {f : Connection → Connection} (hpeer : ∀ c, (f c).peer = c.peer)
    (hrank : ∀ c, c.state.rank ≤ (f c).state.rank) : (h.update p f).Keyed where
  numbered := fun i q hq => hk.numbered i q ((peer?_update p f h hpeer i).symm.trans hq)
  known := fun q hq => (peer?_update p f h hpeer q.handle).trans (hk.known q hq)
  ids_nodup := hk.ids_nodup
  started := by
    intro q hq
    have hbefore := rank_pos.mpr (hk.started q hq)
    by_cases heq : q.handle = p.handle
    · have hafter : (h.update p f).connection q = f (h.connection q) := by
        have hhere : h.update p f = h.update q f := by simp only [Hub.update, heq]
        rw [hhere, connection_update_self q f h (hk.known q hq)]
      rw [hafter]
      exact rank_pos.mp (Nat.lt_of_lt_of_le hbefore (hrank _))
    · rw [connection_update_of_ne p q f h heq]
      exact hk.started q hq

theorem create (user : UserId) (capacity : Nat) (name : Option String) :
    (h.create user capacity name).1.Keyed where
  numbered := by
    intro i p hp
    rw [peer?_create] at hp
    split at hp
    next heq => rw [← Option.some.inj hp, heq]; rfl
    next => exact hk.numbered i p hp
  known := by
    intro p hp
    have hne := Nat.ne_of_lt (hk.known p hp).handle_lt
    exact (peer?_create user capacity name h p.handle).trans
      ((if_neg hne).trans (hk.known p hp))
  ids_nodup := hk.ids_nodup
  started := by
    intro p hp
    have hne := Nat.ne_of_lt (hk.known p hp).handle_lt
    rw [connection_create_of_ne user capacity name h hne]
    exact hk.started p hp

theorem register {p : Peer} (hp : h.Knows p) : (h.register p).Keyed where
  numbered := fun i q hq =>
    hk.numbered i q ((peer?_update p Connection.activate h peer_activate i).symm.trans hq)
  known := by
    intro q hq
    refine (peer?_update p Connection.activate h peer_activate q.handle).trans ?_
    rcases mem_insertPeer.mp hq with rfl | ⟨hold, _⟩
    · exact hp
    · exact hk.known q hold
  ids_nodup := ids_insertPeer_nodup hk.ids_nodup
  started := by
    intro q hq
    have hactive (c : Connection) : c.activate.state ≠ .connecting := by
      rw [Connection.activate]
      split
      · simp
      · assumption
    change ((h.update p Connection.activate).connection q).state ≠ .connecting
    by_cases heq : q.handle = p.handle
    · rw [connection_update_of_handle_eq p q _ h heq rfl]
      exact hactive _
    · rw [connection_update_of_ne p q _ h heq]
      rcases mem_insertPeer.mp hq with rfl | ⟨hold, _⟩
      · exact absurd rfl heq
      · exact hk.started q hold

end Keyed

theorem keyed_new (limits : Limits) : (Hub.new limits).Keyed where
  numbered := by simp [Hub.new, peer?]
  known := by simp [Hub.new]
  ids_nodup := by simp [Hub.new]
  started := by simp [Hub.new]

/-- A step that leaves the queues as they were. -/
theorem Steps.of_waiting_eq {reading : Bool} {new : Nat → Frame → Prop} {h h' : Hub}
    (hk : h'.Keyed) (hpeer : ∀ i p, h.peer? i = some p → h'.peer? i = some p)
    (hsame : ∀ x, (h'.connection x).queue.waiting = (h.connection x).queue.waiting) :
    Steps reading new h h' := by
  have hnone (x : Peer) : gained h h' x = [] :=
    gained_eq_nil_of_le (Nat.le_of_eq (congrArg List.length (hsame x)))
  refine ⟨hk, hpeer, fun _ x => ?_, fun _ => hnone, fun x f hf => ?_⟩
  · rw [hnone, List.append_nil, hsame]
  · rw [hnone] at hf
    exact absurd hf List.not_mem_nil

theorem waiting_create (user : UserId) (capacity : Nat) (name : Option String) (h : Hub)
    (x : Peer) : ((h.create user capacity name).1.connection x).queue.waiting =
      (h.connection x).queue.waiting := by
  by_cases heq : x.handle = h.table.length
  · simp [create, connection, heq, Connection.absent, Connection.new, Queue.new]
  · rw [connection_create_of_ne user capacity name h heq]

theorem waiting_register (p : Peer) (h : Hub) (x : Peer) :
    ((h.register p).connection x).queue.waiting = (h.connection x).queue.waiting := by
  refine waiting_update p x Connection.activate h fun c => ?_
  rw [Connection.activate]
  split
  · rfl
  · rfl

namespace Keyed

variable {h : Hub} (hk : h.Keyed) {reading : Bool} {new : Nat → Frame → Prop}

include hk

theorem peer?_create_of_some {i : Nat} {p : Peer} (hp : h.peer? i = some p) (user : UserId)
    (capacity : Nat) (name : Option String) :
    (h.create user capacity name).1.peer? i = some p := by
  have hlt := (hk.knows_of_peer? hp).handle_lt
  rw [hk.numbered i p hp] at hlt
  rw [peer?_create, if_neg (Nat.ne_of_lt hlt), hp]

theorem steps_refl : Steps reading new h h :=
  .of_waiting_eq hk (fun _ _ hp => hp) fun _ => rfl

theorem steps_create (user : UserId) (capacity : Nat) (name : Option String) :
    Steps reading new h (h.create user capacity name).1 :=
  .of_waiting_eq (hk.create user capacity name)
    (fun _ _ hp => hk.peer?_create_of_some hp user capacity name)
    (waiting_create user capacity name h)

theorem steps_register {p : Peer} (hp : h.Knows p) : Steps reading new h (h.register p) :=
  .of_waiting_eq (hk.register hp)
    (fun i _ hq => (peer?_update p Connection.activate h peer_activate i).trans hq)
    (waiting_register p h)

theorem steps_connect {user : UserId} {h' : Hub} {p : Peer}
    (hok : h.connect user = .ok (h', p)) : Steps reading new h h' := by
  rw [Hub.connect] at hok
  split at hok
  next => cases hok
  next =>
    cases hok
    let made := (h.create user h.limits.queueCapacity none).1
    have hp : made.Knows ⟨h.table.length, .fresh h.table.length, user⟩ :=
      (peer?_create user _ none h h.table.length).trans (if_pos rfl)
    apply Steps.of_waiting_eq ((hk.create user h.limits.queueCapacity none).register hp)
    · intro i q hq
      exact (peer?_update _ Connection.activate made peer_activate i).trans
        (hk.peer?_create_of_some hq user _ none)
    · exact fun x => (waiting_register _ made x).trans (waiting_create user _ none h x)

/-- What a reader does to its queue. -/
theorem steps_read {p : Peer} (hp : h.Knows p) {f : Connection → Connection}
    (hpeer : ∀ c, (f c).peer = c.peer) (hstate : ∀ c, (f c).state = c.state)
    (hle : (f (h.connection p)).queue.waiting.length ≤ (h.connection p).queue.waiting.length) :
    Steps true new h (h.update p f) := by
  have hnone (x : Peer) : gained h (h.update p f) x = [] := by
    apply gained_eq_nil_of_le
    by_cases heq : x.handle = p.handle
    · rw [connection_eq_of_handle heq, connection_eq_of_handle heq,
        connection_update_self p f h hp]
      exact hle
    · exact Nat.le_of_eq
        (congrArg (·.queue.waiting.length) (connection_update_of_ne p x f h heq))
  refine ⟨hk.update hpeer fun c => Nat.le_of_eq (congrArg Lifecycle.rank (hstate c).symm),
    fun i _ hq => (peer?_update p f h hpeer i).trans hq, by simp, fun _ => hnone, ?_⟩
  intro x g hg
  rw [hnone] at hg
  exact absurd hg List.not_mem_nil

end Keyed

end ChatHub.Hub
