import ChatHub.Hub.State
/-!
Deliveries.  A connection that refuses a frame is as good as gone and is removed, which takes it
out of its rooms, which is announced, and an announcement may be refused in its turn.  All those
who refused wait in one list, and one loop removes them: it ends because nobody enters the list
twice, each time an open connection becoming one that is closing.
-/

namespace ChatHub.Hub

/-- What came of putting one frame into several queues. -/
structure Pushed where
  hub : Hub
  delivered : Nat
  /-- Those who refused and were open until then. -/
  dead : List Peer

/-- Puts a frame into the queue of each target that is open. -/
def push (f : Frame) : List Peer → Hub → Pushed
  | [], h => ⟨h, 0, []⟩
  | p :: ps, h =>
      if (h.connection p).isOpen then
        match (h.connection p).queue.send f with
        | .ok q =>
            let r := push f ps (h.update p fun c => { c with queue := q })
            { r with delivered := r.delivered + 1 }
        | .error _ =>
            let r := push f ps (h.update p Connection.beginClose)
            { r with dead := p :: r.dead }
      else push f ps h

/-- Counts a delivery and puts those who refused on the list, the last of them first. -/
def record (r : Pushed) : Hub :=
  { r.hub.count (fun n => { n with events := n.events + 1 }) with
    pending := r.dead.reverse ++ r.hub.pending }

/-- A way to deliver a frame; the number tells how many queues took it. -/
abbrev Delivery := Frame → List Peer → Hub → Hub × Nat

/-- Delivers and leaves those who refused on the list. -/
def offer : Delivery := fun f targets h =>
  let r := push f targets h
  (record r, r.delivered)

/-- Tells the members of a room, and then everyone, that a user left it. -/
def announceLeft (via : Delivery) (user : UserId) (channel : ChannelId) (h : Hub) : Hub :=
  let f := Frame.event (.left channel user)
  let h := (via f (h.rooms.members channel) h).1
  (via f h.registered h).1

/-- Takes a connection off the hub: out of the set, its queue closed, out of its rooms.  Tells
whether it was in the set. -/
def remove (via : Delivery) (p : Peer) (h : Hub) : Hub × Bool :=
  let wasRegistered := h.isRegistered p
  let h := { h with registered := erasePeer p.id h.registered }
  let h := h.update p fun c => c.beginClose.closeQueue
  let (rooms, channels) := h.rooms.leaveAll p.id
  let h := channels.foldl (fun h channel => announceLeft via p.user channel h) { h with rooms }
  (h.update p Connection.markClosed, wasRegistered)

/-- Removes a connection that refused a frame. -/
def evict (p : Peer) (h : Hub) : Hub :=
  let (h, wasRegistered) := remove offer p h
  if wasRegistered then h.count fun n => { n with evicted := n.evicted + 1 } else h

section Measure

theorem countP_modify_le {α : Type} (q : α → Bool) (f : α → α) (xs : List α) (n : Nat)
    (hf : ∀ a, q (f a) = true → q a = true) : (xs.modify n f).countP q ≤ xs.countP q := by
  induction xs generalizing n with
  | nil => simp
  | cons a xs ih =>
    cases n with
    | zero => have := hf a; simp only [List.modify_zero_cons, List.countP_cons]; grind
    | succ n => have := ih n; simp only [List.modify_succ_cons, List.countP_cons]; omega

theorem countP_modify_lt {α : Type} (q : α → Bool) (f : α → α) (xs : List α) (n : Nat)
    (a : α) (ha : xs[n]? = some a) (hq : q a = true) (hf : q (f a) = false) :
    (xs.modify n f).countP q + 1 = xs.countP q := by
  induction xs generalizing n with
  | nil => simp at ha
  | cons b xs ih =>
    cases n with
    | zero =>
      simp only [List.getElem?_cons_zero, Option.some.injEq] at ha
      subst ha
      simp [hq, hf]
    | succ n =>
      have := ih n (by simpa using ha)
      simp only [List.modify_succ_cons, List.countP_cons]
      omega

theorem openCount_update_le (p : Peer) (f : Connection → Connection) (h : Hub)
    (hf : ∀ c, (f c).isOpen = true → c.isOpen = true) :
    (h.update p f).openCount ≤ h.openCount :=
  countP_modify_le _ _ _ _ hf

theorem isOpen_beginClose (c : Connection) : c.beginClose.isOpen = false := by
  unfold Connection.beginClose
  split
  · rfl
  · simpa using ‹¬c.isOpen = true›

theorem openCount_beginClose {p : Peer} {h : Hub} (ho : (h.connection p).isOpen = true) :
    (h.update p Connection.beginClose).openCount + 1 = h.openCount := by
  unfold connection at ho
  cases hc : h.table[p.handle]? with
  | none => rw [hc] at ho; simp [Connection.absent, Connection.isOpen, Lifecycle.isOpen,
      Lifecycle.rank] at ho
  | some c =>
    rw [hc] at ho
    exact countP_modify_lt _ _ _ _ c hc ho (isOpen_beginClose c)

theorem push_measure (f : Frame) (ps : List Peer) (h : Hub) :
    (push f ps h).dead.length + (push f ps h).hub.openCount ≤ h.openCount ∧
      (push f ps h).hub.pending = h.pending := by
  induction ps generalizing h with
  | nil => simp [push]
  | cons p ps ih =>
    simp only [push]
    split
    next ho =>
      split
      next q _ =>
        have h1 := ih (h.update p fun c => { c with queue := q })
        have h2 := openCount_update_le p (fun c => { c with queue := q }) h fun _ hc => hc
        exact ⟨Nat.le_trans h1.1 h2, h1.2⟩
      next =>
        have h1 := ih (h.update p Connection.beginClose)
        have h2 := openCount_beginClose ho
        refine ⟨?_, h1.2⟩
        simp only [List.length_cons]
        omega
    next => exact ih h

/-- Entries of the list and open connections together, which no delivery makes more. -/
def measure (h : Hub) : Nat := h.pending.length + h.openCount

theorem pending_record (r : Pushed) :
    (record r).pending = r.dead.reverse ++ r.hub.pending := rfl

theorem openCount_record (r : Pushed) : (record r).openCount = r.hub.openCount := rfl

theorem measure_offer_le (f : Frame) (ps : List Peer) (h : Hub) :
    (offer f ps h).1.measure ≤ h.measure := by
  have h1 := push_measure f ps h
  simp only [measure, offer, pending_record, openCount_record, List.length_append,
    List.length_reverse, h1.2]
  omega

theorem measure_announceLeft_le (user : UserId) (channel : ChannelId) (h : Hub) :
    (announceLeft offer user channel h).measure ≤ h.measure :=
  Nat.le_trans (measure_offer_le _ _ _) (measure_offer_le _ _ _)

theorem measure_remove_le (p : Peer) (h : Hub) : (remove offer p h).1.measure ≤ h.measure := by
  have fold (channels : List ChannelId) (g : Hub) :
      (channels.foldl (fun g channel => announceLeft offer p.user channel g) g).measure ≤
        g.measure := by
    induction channels generalizing g with
    | nil => exact Nat.le_refl _
    | cons c cs ih => exact Nat.le_trans (ih _) (measure_announceLeft_le _ _ _)
  have closed (c : Connection) : c.markClosed.isOpen = true → c.isOpen = true := by
    simp [Connection.markClosed, Connection.isOpen, Lifecycle.isOpen, Lifecycle.rank]
  have closing (c : Connection) : c.beginClose.closeQueue.isOpen = true → c.isOpen = true := by
    have : c.beginClose.closeQueue.isOpen = c.beginClose.isOpen := rfl
    simp [this, isOpen_beginClose]
  have update (q : Peer) (f : Connection → Connection) (g : Hub)
      (hf : ∀ c, (f c).isOpen = true → c.isOpen = true) : (g.update q f).measure ≤ g.measure :=
    Nat.add_le_add_left (openCount_update_le q f g hf) _
  exact Nat.le_trans (update _ _ _ closed) (Nat.le_trans (fold _ _)
    (update p (fun c => c.beginClose.closeQueue)
      { h with registered := erasePeer p.id h.registered } closing))

theorem measure_evict_le (p : Peer) (h : Hub) : (evict p h).measure ≤ h.measure := by
  simp only [evict]
  split
  · exact measure_remove_le p h
  · exact measure_remove_le p h

end Measure

/-- Removes those on the list, and those that their removal puts there. -/
def evictPending (h : Hub) : Hub :=
  match _hp : h.pending with
  | [] => h
  | p :: rest => evictPending (evict p { h with pending := rest })
termination_by h.measure
decreasing_by
  have h1 := measure_evict_le p { h with pending := rest }
  have h2 : ({ h with pending := rest } : Hub).measure + 1 = h.measure := by
    simp only [measure, _hp, List.length_cons, openCount]
    omega
  omega

/-- Runs the loop, unless it is running. -/
def drain (h : Hub) : Hub :=
  if h.draining then h
  else { evictPending { h with draining := true } with draining := false }

/-- Delivers and removes those who refuse.  While the loop runs they are left to it. -/
def deliver : Delivery := fun f targets h =>
  let r := push f targets h
  (if r.dead.isEmpty then record r else drain (record r), r.delivered)

/-- To every registered connection that `sel` picks. -/
def broadcastWhere (sel : Connection → Bool) (e : Event) (h : Hub) : Hub × Nat :=
  deliver (.event e) (h.registered.filter fun p => sel (h.connection p)) h

/-- To every registered connection. -/
def broadcast (e : Event) (h : Hub) : Hub × Nat := deliver (.event e) h.registered h

/-- To those who look at a channel. -/
def broadcastToChannel (channel : ChannelId) (e : Event) (h : Hub) : Hub × Nat :=
  h.broadcastWhere (Connection.isViewing channel) e

/-- To every connection of a user. -/
def sendToUser (user : UserId) (e : Event) (h : Hub) : Hub × Nat :=
  deliver (.event e) (h.registered.filter (·.user == user)) h

/-- To the members of a room, except the one named. -/
def broadcastToRoom (channel : ChannelId) (e : Event) (exclude : Option ConnectionId) (h : Hub) :
    Hub × Nat :=
  deliver (.event e) ((h.rooms.members channel).filter fun p => exclude != some p.id) h

/-- To one connection.  Tells whether it got the event. -/
def sendTo (p : Peer) (e : Event) (h : Hub) : Hub × Bool :=
  let (h, n) := deliver (.event e) [p] h
  (h, n == 1)

/-- Takes a connection off the hub.  Tells whether it was registered; if it was not, no harm is
done. -/
def unregister (p : Peer) (h : Hub) : Hub × Bool := remove deliver p h

end ChatHub.Hub
