import ChatHub.Hub.Operation
import ChatHub.Proofs.Hub.Offer
import Mathlib.Data.List.Nodup
/-!
One frame into several queues.  Between different connections the order makes no difference: each
of them is offered the frame once, and the others stay as they are.
-/

namespace ChatHub.Hub

/-- The hub's table has the peer under its number. -/
def Knows (h : Hub) (p : Peer) : Prop := h.peer? p.handle = some p

instance (h : Hub) (p : Peer) : Decidable (h.Knows p) :=
  inferInstanceAs (Decidable (h.peer? p.handle = some p))

theorem Knows.eq_of_handle {h : Hub} {p q : Peer} (hp : h.Knows p) (hq : h.Knows q)
    (heq : p.handle = q.handle) : p = q := by
  rw [Knows, heq, hq] at hp
  exact (Option.some.inj hp).symm

theorem Knows.mem_handles_iff {h : Hub} {p : Peer} {ps : List Peer} (hp : h.Knows p)
    (hps : ∀ q ∈ ps, h.Knows q) : p.handle ∈ ps.map Peer.handle ↔ p ∈ ps := by
  constructor
  · intro hmem
    obtain ⟨q, hq, heq⟩ := List.mem_map.mp hmem
    exact (hps q hq).eq_of_handle hp heq ▸ hq
  · exact fun hmem => List.mem_map_of_mem hmem

theorem handles_nodup {h : Hub} {ps : List Peer} (hps : ∀ q ∈ ps, h.Knows q)
    (hnodup : ps.Nodup) : (ps.map Peer.handle).Nodup :=
  List.Nodup.map_on (fun p hp q hq heq => (hps p hp).eq_of_handle (hps q hq) heq) hnodup

theorem connection_eq_of_handle {p q : Peer} (heq : p.handle = q.handle) (h : Hub) :
    h.connection p = h.connection q := by
  rw [connection, connection, heq]

section Update

variable (p q : Peer) (f g : Connection → Connection) (h : Hub)

@[simp]
theorem update_counters : (h.update p f).counters = h.counters := rfl

theorem connection_update_of_ne (hne : q.handle ≠ p.handle) :
    (h.update p f).connection q = h.connection q := by
  simp only [connection, update, List.getElem?_modify, hne.symm, if_false, id_map']

theorem connection_update_of_handle_eq (heq : q.handle = p.handle)
    (hf : f .absent = .absent) : (h.update p f).connection q = f (h.connection q) := by
  simp only [connection, update, List.getElem?_modify, heq, if_true]
  cases h.table[p.handle]? with
  | none => exact hf.symm
  | some c => rfl

theorem connection_update_self (hp : h.Knows p) :
    (h.update p f).connection p = f (h.connection p) := by
  obtain ⟨c, hc, _⟩ := Option.map_eq_some_iff.mp hp
  simp only [connection, update, List.getElem?_modify, if_true, hc]
  rfl

theorem waiting_update (hf : ∀ c, (f c).queue.waiting = c.queue.waiting) :
    ((h.update p f).connection q).queue.waiting = (h.connection q).queue.waiting := by
  simp only [connection, update, List.getElem?_modify]
  cases h.table[q.handle]? with
  | none => rfl
  | some c =>
    by_cases heq : p.handle = q.handle
    · simp only [heq, if_true, Option.map_eq_map, Option.map_some, Option.getD_some, hf]
    · simp only [heq, if_false, Option.map_eq_map, Option.map_some, Option.getD_some]

/-- What an update does elsewhere than at its connection has no effect. -/
theorem update_congr (hfg : f (h.connection p) = g (h.connection p)) :
    h.update p f = h.update p g := by
  simp only [update]
  congr 1
  apply List.ext_getElem?
  intro i
  simp only [List.getElem?_modify]
  by_cases hi : p.handle = i
  · subst hi
    cases hc : h.table[p.handle]? with
    | none => rfl
    | some c =>
      simp only [connection, hc, Option.getD_some] at hfg
      simp [hfg]
  · simp only [hi, if_false]

variable {p f h} in
theorem update_eq_self (hf : f (h.connection p) = h.connection p) : h.update p f = h := by
  rw [update_congr p f id h hf]
  simp only [update, List.modify_id]

theorem peer?_update (hf : ∀ c, (f c).peer = c.peer) (i : Nat) :
    (h.update p f).peer? i = h.peer? i := by
  simp only [peer?, update, List.getElem?_modify, Option.map_eq_map, Option.map_map]
  congr 1
  funext c
  by_cases hi : p.handle = i
  · simp only [Function.comp_apply, hi, if_true, hf]
  · simp only [Function.comp_apply, hi, if_false]

end Update

section Create

variable (user : UserId) (capacity : Nat) (name : Option String) (h : Hub)

theorem peer?_create (i : Nat) :
    (h.create user capacity name).1.peer? i =
      if i = h.table.length then some (h.create user capacity name).2 else h.peer? i := by
  simp only [create, peer?, List.getElem?_append, List.getElem?_singleton]
  by_cases hlast : i = h.table.length
  · rw [if_neg (by omega), if_pos (by omega), if_pos hlast]
    rfl
  · rw [if_neg hlast]
    split
    next => rfl
    next hge =>
      rw [if_neg (by omega), List.getElem?_eq_none (by omega)]

theorem connection_create_of_ne {q : Peer} (hq : q.handle ≠ h.table.length) :
    (h.create user capacity name).1.connection q = h.connection q := by
  simp only [create, connection, List.getElem?_append, List.getElem?_singleton]
  split
  next => rfl
  next hge => rw [if_neg (by omega), List.getElem?_eq_none (by omega)]

theorem connection_create_self :
    (h.create user capacity name).1.connection (h.create user capacity name).2 =
      .new (h.create user capacity name).2 capacity := by
  simp [create, connection]

theorem Knows.handle_lt {h : Hub} {p : Peer} (hp : h.Knows p) : p.handle < h.table.length := by
  obtain ⟨c, hc, _⟩ := Option.map_eq_some_iff.mp hp
  exact (List.getElem?_eq_some_iff.mp hc).1

/-- What a new connection makes of the hub. -/
structure Connected (user : UserId) (h : Hub) (p : Peer) (h' : Hub) : Prop where
  peer_eq : p = ⟨h.table.length, .fresh h.table.length, user⟩
  limits : h'.limits = h.limits
  registered : h'.registered = insertPeer p h.registered
  rooms : h'.rooms = h.rooms
  counters : h'.counters = { h.counters with connections := h.counters.connections + 1 }
  pending : h'.pending = h.pending
  draining : h'.draining = h.draining
  peer? : ∀ i, h'.peer? i = if i = h.table.length then some p else h.peer? i
  older : ∀ q, q.handle ≠ h.table.length → h'.connection q = h.connection q
  newest : h'.connection p =
    { Connection.new p h.limits.queueCapacity with state := .active }

section Connected

variable {user : UserId} {h h' : Hub} {p : Peer} (hn : Connected user h p h')

include hn

theorem Connected.id_eq : p.id = .fresh p.handle := by
  rw [hn.peer_eq]

theorem Connected.knows : h'.Knows p := by
  have hlast : p.handle = h.table.length := congrArg Peer.handle hn.peer_eq
  exact (hn.peer? p.handle).trans (if_pos hlast)

theorem Connected.handle_ne {q : Peer} (hq : h.Knows q) : q.handle ≠ p.handle := by
  rw [hn.peer_eq]
  exact Nat.ne_of_lt hq.handle_lt

/-- Those who were known stay as they were. -/
theorem Connected.connection_eq {q : Peer} (hq : h.Knows q) :
    h'.connection q = h.connection q :=
  hn.older q (Nat.ne_of_lt hq.handle_lt)

theorem Connected.knows_iff {q : Peer} : h'.Knows q ↔ q = p ∨ h.Knows q := by
  constructor
  · intro hq
    rw [Knows, hn.peer?] at hq
    split at hq
    next => exact Or.inl (Option.some.inj hq).symm
    next => exact Or.inr hq
  · rintro (rfl | hq)
    · exact hn.knows
    · exact (hn.peer? q.handle).trans ((if_neg (Nat.ne_of_lt hq.handle_lt)).trans hq)

end Connected

theorem peer_activate (c : Connection) : c.activate.peer = c.peer := by
  rw [Connection.activate]
  split
  · rfl
  · rfl

theorem connected_of_connect {user : UserId} {h h' : Hub} {p : Peer}
    (hok : h.connect user = .ok (h', p)) : Connected user h p h' := by
  rw [connect] at hok
  split at hok
  next => cases hok
  next =>
    cases hok
    constructor
    case peer_eq => rfl
    case limits => rfl
    case registered => rfl
    case rooms => rfl
    case counters => rfl
    case pending => rfl
    case draining => rfl
    case peer? =>
      intro i
      exact (peer?_update _ Connection.activate _ peer_activate i).trans
        (peer?_create user _ none h i)
    case older =>
      intro q hq
      exact (connection_update_of_ne _ q Connection.activate _ hq).trans
        (connection_create_of_ne user _ none h hq)
    case newest =>
      refine (connection_update_of_handle_eq _ _ Connection.activate _ rfl rfl).trans ?_
      exact congrArg Connection.activate (connection_create_self user _ none h)

end Create

theorem peer_beginClose (c : Connection) : c.beginClose.peer = c.peer := by
  rw [Connection.beginClose]
  split
  · rfl
  · rfl

theorem peer_offer (f : Frame) (c : Connection) : (c.offer f).peer = c.peer := by
  rw [Connection.offer]
  split
  · split
    · rfl
    · exact peer_beginClose c
  · rfl

theorem offer_absent (f : Frame) : Connection.absent.offer f = .absent := rfl

section Push

variable (f : Frame)

/-- The first connection is offered the frame, and then the others are. -/
theorem push_cons (p : Peer) (ps : List Peer) (h : Hub) :
    push f (p :: ps) h =
      ⟨(push f ps (h.update p (Connection.offer f))).hub,
        (push f ps (h.update p (Connection.offer f))).delivered +
          (if (h.connection p).isOpen = true ∧ 0 < (h.connection p).queue.free then 1 else 0),
        if (h.connection p).isOpen = true ∧ (h.connection p).queue.free = 0 then
          p :: (push f ps (h.update p (Connection.offer f))).dead
        else (push f ps (h.update p (Connection.offer f))).dead⟩ := by
  cases hopen : (h.connection p).isOpen with
  | false =>
    have hsame : h.update p (Connection.offer f) = h :=
      update_eq_self (Connection.offer_of_not_open f hopen)
    simp [push, hopen, hsame]
  | true =>
    by_cases hfull : (h.connection p).queue.free = 0
    · obtain ⟨e, he⟩ := Queue.send_of_free_eq_zero f hfull
      have hsame : h.update p (Connection.offer f) = h.update p Connection.beginClose :=
        update_congr p _ _ h (Connection.offer_of_free_eq_zero f hopen hfull)
      simp [push, hopen, he, hfull, hsame]
    · have hfree := Nat.pos_of_ne_zero hfull
      have hsame : h.update p (Connection.offer f) = h.update p fun c =>
          { c with queue :=
            { (h.connection p).queue with waiting := (h.connection p).queue.waiting ++ [f] } } :=
        update_congr p _ _ h (Connection.offer_of_free_pos f hopen hfree)
      simp [push, hopen, Queue.send_of_free_pos f hfree, hfull, hfree, hsame]

/-- Putting a frame into queues is offering it to each connection in turn. -/
theorem push_hub (ps : List Peer) (h : Hub) :
    (push f ps h).hub = ps.foldl (fun h p => h.update p (Connection.offer f)) h := by
  induction ps generalizing h with
  | nil => rfl
  | cons p ps ih => rw [List.foldl_cons, ← ih, push_cons]

theorem push_eq_with_table (ps : List Peer) (h : Hub) :
    (push f ps h).hub = { h with table := (push f ps h).hub.table } := by
  rw [push_hub]
  induction ps generalizing h with
  | nil => rfl
  | cons p ps ih => rw [List.foldl_cons, ih (h.update p (Connection.offer f))]; rfl

variable (ps : List Peer) (h : Hub)

@[simp]
theorem push_registered : (push f ps h).hub.registered = h.registered := by
  rw [push_eq_with_table]

@[simp]
theorem push_rooms : (push f ps h).hub.rooms = h.rooms := by
  rw [push_eq_with_table]

@[simp]
theorem push_pending : (push f ps h).hub.pending = h.pending := by
  rw [push_eq_with_table]

@[simp]
theorem push_draining : (push f ps h).hub.draining = h.draining := by
  rw [push_eq_with_table]

@[simp]
theorem push_counters : (push f ps h).hub.counters = h.counters := by
  rw [push_eq_with_table]

@[simp]
theorem push_limits : (push f ps h).hub.limits = h.limits := by
  rw [push_eq_with_table]

@[simp]
theorem push_peer? (i : Nat) : (push f ps h).hub.peer? i = h.peer? i := by
  rw [push_hub]
  induction ps generalizing h with
  | nil => rfl
  | cons p ps ih => rw [List.foldl_cons, ih, peer?_update p _ h (peer_offer f)]

variable {ps}

theorem push_connection_of_not_mem {q : Peer} (hq : q.handle ∉ ps.map Peer.handle) :
    (push f ps h).hub.connection q = h.connection q := by
  rw [push_hub]
  induction ps generalizing h with
  | nil => rfl
  | cons p ps ih =>
    simp only [List.map_cons, List.mem_cons, not_or] at hq
    rw [List.foldl_cons, ih _ hq.2, connection_update_of_ne _ _ _ _ hq.1]

theorem push_connection_of_mem (hnodup : (ps.map Peer.handle).Nodup) {q : Peer}
    (hq : q.handle ∈ ps.map Peer.handle) :
    (push f ps h).hub.connection q = (h.connection q).offer f := by
  induction ps generalizing h with
  | nil => simp at hq
  | cons p ps ih =>
    simp only [List.map_cons, List.nodup_cons, List.mem_cons] at hnodup hq
    rw [push_hub, List.foldl_cons, ← push_hub]
    by_cases heq : q.handle = p.handle
    · rw [push_connection_of_not_mem f _ (heq ▸ hnodup.1),
        connection_update_of_handle_eq _ _ _ _ heq (offer_absent f)]
    · rw [ih _ hnodup.2 (hq.resolve_left heq), connection_update_of_ne _ _ _ _ heq]

/-- Those that a frame starts to close. -/
theorem push_dead (hnodup : (ps.map Peer.handle).Nodup) :
    (push f ps h).dead = ps.filter fun p =>
      (h.connection p).isOpen && !((h.connection p).offer f).isOpen := by
  induction ps generalizing h with
  | nil => rfl
  | cons p ps ih =>
    simp only [List.map_cons, List.nodup_cons] at hnodup
    have hrest : (push f ps (h.update p (Connection.offer f))).dead = ps.filter fun q =>
        (h.connection q).isOpen && !((h.connection q).offer f).isOpen := by
      rw [ih _ hnodup.2]
      apply List.filter_congr
      intro q hq
      have hne : q.handle ≠ p.handle := fun heq =>
        hnodup.1 (heq ▸ List.mem_map_of_mem hq)
      rw [connection_update_of_ne p q _ h hne]
    have hfirst : ((h.connection p).isOpen && !((h.connection p).offer f).isOpen) = true ↔
        (h.connection p).isOpen = true ∧ (h.connection p).queue.free = 0 := by
      rw [Connection.isOpen_offer]
      cases (h.connection p).isOpen with
      | false => simp
      | true => simp
    rw [push_cons, List.filter_cons]
    simp only [hrest, hfirst]

/-- The queues that take a frame are those of open connections with room. -/
theorem push_delivered (hnodup : (ps.map Peer.handle).Nodup) :
    (push f ps h).delivered = ps.countP fun p =>
      (h.connection p).isOpen && decide (0 < (h.connection p).queue.free) := by
  induction ps generalizing h with
  | nil => rfl
  | cons p ps ih =>
    simp only [List.map_cons, List.nodup_cons] at hnodup
    have hrest : (push f ps (h.update p (Connection.offer f))).delivered = ps.countP fun q =>
        (h.connection q).isOpen && decide (0 < (h.connection q).queue.free) := by
      rw [ih _ hnodup.2]
      apply List.countP_congr
      intro q hq
      have hne : q.handle ≠ p.handle := fun heq =>
        hnodup.1 (heq ▸ List.mem_map_of_mem hq)
      rw [connection_update_of_ne p q _ h hne]
    rw [push_cons, List.countP_cons]
    simp only [hrest, Bool.and_eq_true, decide_eq_true_eq]

end Push

end ChatHub.Hub
