import ChatHub.Proofs.Hub.Growth
/-!
What the operations of a hub are made of.  Each is a list of moves, the least things that can happen
to one connection, to the set or to the rooms, and making the moves one after another comes to the
same as the operation, cascade and all.
-/

namespace ChatHub

namespace Connection

/-- Puts a frame into the queue, if it goes in. -/
def put (f : Frame) (c : Connection) : Connection :=
  match c.queue.send f with
  | .ok q => { c with queue := q }
  | .error _ => c

/-- Takes the frame that waits longest, if there is one. -/
def pull (c : Connection) : Connection :=
  match c.queue.take with
  | .frame _ q => { c with queue := q }
  | _ => c

end Connection

namespace Hub

/-- What can happen to a connection. -/
inductive Touch where
  | activate
  | beginClose
  | closeQueue
  | markClosed
  | view (channel : Option ChannelId)
  | put (f : Frame)
  | pull
  | abandon
deriving DecidableEq, Repr

def Touch.apply : Touch → Connection → Connection
  | activate => Connection.activate
  | beginClose => Connection.beginClose
  | closeQueue => Connection.closeQueue
  | markClosed => Connection.markClosed
  | view channel => Connection.view channel
  | put f => Connection.put f
  | pull => Connection.pull
  | abandon => fun c => { c with queue := c.queue.abandon }

/-- What can happen to a hub. -/
inductive Move where
  | make (user : UserId) (capacity : Nat) (name : Option String)
  | touch (p : Peer) (t : Touch)
  /-- Puts a connection into the set. -/
  | enlist (p : Peer)
  /-- Takes one out of the set. -/
  | strike (id : ConnectionId)
  | enter (p : Peer) (channel : ChannelId)
  | exit (channel : ChannelId) (id : ConnectionId)
  | exitAll (id : ConnectionId)
  /-- Whatever concerns neither connections nor rooms. -/
  | note (counters : Counters) (pending : List Peer) (draining : Bool)
deriving DecidableEq, Repr

def move (h : Hub) : Move → Hub
  | .make user capacity name => (h.create user capacity name).1
  | .touch p t => h.update p t.apply
  | .enlist p => { h with registered := insertPeer p h.registered }
  | .strike id => { h with registered := erasePeer id h.registered }
  | .enter p channel =>
      { h with rooms := (h.rooms.join channel p (h.connection p).queue.closed).1 }
  | .exit channel id => { h with rooms := (h.rooms.leave channel id).1 }
  | .exitAll id => { h with rooms := (h.rooms.leaveAll id).1 }
  | .note counters pending draining => { h with counters, pending, draining }

/-- The hub after some moves. -/
def moved (h : Hub) (moves : List Move) : Hub := moves.foldl move h

theorem moved_append (h : Hub) (ms ms' : List Move) :
    h.moved (ms ++ ms') = (h.moved ms).moved ms' :=
  List.foldl_append

section Touched

variable {h : Hub} {m : Move} {i : Nat} {c : Connection}

/-- A move leaves a connection as it is or touches it. -/
def Touched (c c' : Connection) : Prop := c' = c ∨ ∃ t : Touch, c' = t.apply c

theorem touched_move (hc : h.table[i]? = some c) (m : Move) :
    ∃ c', (h.move m).table[i]? = some c' ∧ Touched c c' := by
  cases m with
  | touch p t =>
    by_cases heq : p.handle = i
    · refine ⟨t.apply c, ?_, Or.inr ⟨t, rfl⟩⟩
      simp only [move, update, List.getElem?_modify, heq, if_true, hc]
      rfl
    · refine ⟨c, ?_, Or.inl rfl⟩
      simp only [move, update, List.getElem?_modify, heq, if_false, hc]
      rfl
  | make user capacity name =>
    have hlt : i < h.table.length := (List.getElem?_eq_some_iff.mp hc).1
    exact ⟨c, (List.getElem?_append_left hlt).trans hc, Or.inl rfl⟩
  | enlist | strike | enter | exit | exitAll | note => exact ⟨c, hc, Or.inl rfl⟩

/-- A connection that was not there before is a new one. -/
theorem of_getElem?_move (hc : (h.move m).table[i]? = some c) :
    (∃ p capacity, c = .new p capacity) ∨ ∃ b, h.table[i]? = some b ∧ Touched b c := by
  cases hold : h.table[i]? with
  | some b =>
    obtain ⟨b', hb', htouched⟩ := touched_move hold m
    exact Or.inr ⟨b, rfl, Option.some.inj (hb'.symm.trans hc) ▸ htouched⟩
  | none =>
    cases m with
    | make user capacity name =>
      simp only [move, create, List.getElem?_append, hold] at hc
      split at hc
      next => cases hc
      next =>
        rw [List.getElem?_singleton] at hc
        split at hc
        next => exact Or.inl ⟨_, _, (Option.some.inj hc).symm⟩
        next => cases hc
    | touch p t =>
      simp only [move, update, List.getElem?_modify, hold] at hc
      cases hc
    | enlist | strike | enter | exit | exitAll | note =>
      exact absurd (hold.symm.trans hc) (Option.some_ne_none c).symm

variable {P : Connection → Prop} (hP : ∀ (t : Touch) (c : Connection), P c → P (t.apply c))

include hP

/-- What a connection keeps when it is touched, it keeps on all moves. -/
theorem holds_moved (hc : h.table[i]? = some c) (hp : P c) (ms : List Move) :
    ∃ c', (h.moved ms).table[i]? = some c' ∧ P c' := by
  induction ms generalizing h c with
  | nil => exact ⟨c, hc, hp⟩
  | cons m ms ih =>
    obtain ⟨c', hc', htouched⟩ := touched_move hc m
    refine ih hc' ?_
    rcases htouched with rfl | ⟨t, rfl⟩
    · exact hp
    · exact hP t c hp

/-- If new connections have it too, then all connections do. -/
theorem forall_moved (hnew : ∀ p capacity, P (.new p capacity))
    (hh : ∀ (i : Nat) (c : Connection), h.table[i]? = some c → P c) (ms : List Move) :
    ∀ (i : Nat) (c : Connection), (h.moved ms).table[i]? = some c → P c := by
  induction ms generalizing h with
  | nil => exact hh
  | cons m ms ih =>
    refine ih fun i c hc => ?_
    rcases of_getElem?_move hc with ⟨p, capacity, rfl⟩ | ⟨b, hb, rfl | ⟨t, rfl⟩⟩
    · exact hnew p capacity
    · exact hh i c hb
    · exact hP t b (hh i b hb)

end Touched

/-- Moves that lead from one hub to another. -/
structure Trail (h h' : Hub) where
  moves : List Move
  moved_eq : h.moved moves = h'

namespace Trail

variable {h h' h'' : Hub}

def refl (h : Hub) : Trail h h := ⟨[], rfl⟩

def one (m : Move) (h : Hub) : Trail h (h.move m) := ⟨[m], rfl⟩

def touch (p : Peer) (t : Touch) (h : Hub) : Trail h (h.update p t.apply) := one (.touch p t) h

def note (counters : Counters) (pending : List Peer) (draining : Bool) (h : Hub) :
    Trail h { h with counters, pending, draining } :=
  one (.note counters pending draining) h

def count (f : Counters → Counters) (h : Hub) : Trail h (h.count f) :=
  note (f h.counters) h.pending h.draining h

def trans (t : Trail h h') (u : Trail h' h'') : Trail h h'' :=
  ⟨t.moves ++ u.moves, by rw [moved_append, t.moved_eq, u.moved_eq]⟩

/-- The same moves, when the hub that they lead to is written in another way. -/
def cast (t : Trail h h') (heq : h' = h'') : Trail h h'' := ⟨t.moves, t.moved_eq.trans heq⟩

/-- One of two trails, as the program chooses between two results. -/
def branch {α : Type} {c : Prop} [Decidable c] {a b : α} (f : α → Hub) (t : c → Trail h (f a))
    (u : ¬ c → Trail h (f b)) : Trail h (f (if c then a else b)) :=
  if hc : c then (t hc).cast (congrArg f (if_pos hc).symm)
  else (u hc).cast (congrArg f (if_neg hc).symm)

theorem update_put {p : Peer} {f : Frame} {q : Queue} {h : Hub}
    (hsend : (h.connection p).queue.send f = .ok q) :
    h.update p (Connection.put f) = h.update p fun c => { c with queue := q } := by
  apply update_congr
  simp only [Connection.put, hsend]

theorem update_pull {p : Peer} {f : Frame} {q : Queue} {h : Hub}
    (htake : (h.connection p).queue.take = .frame f q) :
    h.update p Connection.pull = h.update p fun c => { c with queue := q } := by
  apply update_congr
  simp only [Connection.pull, htake]

/-- Each target takes the frame, or begins to close, or is passed over. -/
def push (f : Frame) : (ps : List Peer) → (h : Hub) → Trail h (Hub.push f ps h).hub
  | [], h => refl h
  | p :: ps, h =>
      if hopen : (h.connection p).isOpen = true then
        match hsend : (h.connection p).queue.send f with
        | .ok _ => ((touch p (.put f) h).trans (push f ps _)).cast (by
            simp only [Hub.push, hopen, if_true, hsend, Touch.apply, update_put hsend])
        | .error _ => ((touch p .beginClose h).trans (push f ps _)).cast (by
            simp only [Hub.push, hopen, if_true, hsend, Touch.apply])
      else (push f ps h).cast (by simp only [Hub.push, hopen, if_false, Bool.false_eq_true])

def record {r : Pushed} (t : Trail h r.hub) : Trail h (record r) := t.trans (note _ _ _ r.hub)

/-- Trails of a way to deliver frames. -/
abbrev Of (via : Delivery) := (f : Frame) → (ts : List Peer) → (h : Hub) → Trail h (via f ts h).1

def offer : Of offer := fun f ts h => (push f ts h).record

def announceLeft {via : Delivery} (walk : Of via) (user : UserId) (channel : ChannelId) (h : Hub) :
    Trail h (announceLeft via user channel h) :=
  (walk _ _ h).trans (walk _ _ _)

def announceAll {via : Delivery} (walk : Of via) (user : UserId) : (channels : List ChannelId) →
    (h : Hub) → Trail h (channels.foldl (fun h channel => Hub.announceLeft via user channel h) h)
  | [], h => refl h
  | channel :: channels, h =>
      (announceLeft walk user channel h).trans (announceAll walk user channels _)

/-- The queue is closed first, and then the rooms are left. -/
def detach (p : Peer) (h : Hub) : Trail h (h.detach p) :=
  ((((one (.strike p.id) h).trans (touch p .beginClose _)).trans
    (touch p .closeQueue _)).trans (one (.exitAll p.id) _)).cast (by
      simp only [move, Hub.detach, Touch.apply, update, List.modify_modify_eq]
      rfl)

/-- What is left to do when a connection is off the set and out of its rooms. -/
def takeLeave {via : Delivery} (walk : Of via) (p : Peer) (h : Hub) :
    Trail (h.detach p) (remove via p h).1 :=
  (announceAll walk p.user (h.rooms.leaveAll p.id).2 (h.detach p)).trans (touch p .markClosed _)

def remove {via : Delivery} (walk : Of via) (p : Peer) (h : Hub) : Trail h (remove via p h).1 :=
  (detach p h).trans (takeLeave walk p h)

def evict (p : Peer) (h : Hub) : Trail h (evict p h) :=
  branch id (fun _ => (remove offer p h).trans (count _ _)) fun _ => remove offer p h

def evictPending (h : Hub) : Trail h h.evictPending :=
  match hpending : h.pending with
  | [] => (refl h).cast (evictPending_of_nil hpending).symm
  | p :: rest =>
      ((note h.counters rest h.draining h).trans ((evict p _).trans (evictPending _))).cast
        (evictPending_of_cons hpending).symm
termination_by h.measure
decreasing_by
  have hle := measure_evict_le p { h with pending := rest }
  have hlt : ({ h with pending := rest } : Hub).measure + 1 = h.measure := by
    simp only [measure, hpending, List.length_cons, openCount]
    omega
  omega

def drain (h : Hub) : Trail h h.drain :=
  branch id (fun _ => refl h) fun _ =>
    (note h.counters h.pending true h).trans ((evictPending _).trans (note _ _ false _))

def deliver : Of deliver := fun f ts h =>
  branch id (fun _ => (push f ts h).record) fun _ => (push f ts h).record.trans (drain _)

def sendTo (p : Peer) (e : Event) (h : Hub) : Trail h (h.sendTo p e).1 := deliver _ _ h

def broadcast (e : Event) (h : Hub) : Trail h (h.broadcast e).1 := deliver _ _ h

def broadcastToChannel (channel : ChannelId) (e : Event) (h : Hub) :
    Trail h (h.broadcastToChannel channel e).1 :=
  deliver _ _ h

def broadcastToRoom (channel : ChannelId) (e : Event) (exclude : Option ConnectionId) (h : Hub) :
    Trail h (h.broadcastToRoom channel e exclude).1 :=
  deliver _ _ h

def sendToUser (user : UserId) (e : Event) (h : Hub) : Trail h (h.sendToUser user e).1 :=
  deliver _ _ h

def unregister (p : Peer) (h : Hub) : Trail h (h.unregister p).1 := remove deliver p h

def joinRoom (p : Peer) (channel : ChannelId) (h : Hub) : Trail h (h.joinRoom p channel).1 :=
  match hjoin : h.rooms.join channel p (h.connection p).queue.closed with
  | (_, none) => (refl h).cast (by simp only [Hub.joinRoom, hjoin])
  | (rooms, some users) =>
      let entered : Trail h { h with rooms } :=
        (one (.enter p channel) h).cast (by simp only [move, hjoin])
      let sent := entered.trans (sendTo p ⟨.voiceRoomState, .roomState ⟨channel, users⟩⟩ _)
      (branch id (fun _ => sent) fun _ => sent.trans ((broadcastToRoom channel
        (.joined channel p.user) (some p.id) _).trans (broadcast (.joined channel p.user) _))).cast
          (joinRoom_eq hjoin).symm

def leaveRoom (p : Peer) (channel : ChannelId) (h : Hub) : Trail h (h.leaveRoom p channel).1 :=
  branch Prod.fst (fun _ => (one (.exit channel p.id) h).trans
    (announceLeft deliver p.user channel _)) fun _ => refl h

def relaySignal (p : Peer) (kind : SignalKind) (s : Signal) (h : Hub) :
    Trail h (h.relaySignal p kind s).1 :=
  let e : Event := ⟨kind.eventKind, .signal ⟨s.channel, p.user, s.payload⟩⟩
  branch Prod.fst (fun _ => count (fun n => { n with signalsDropped := n.signalsDropped + 1 }) h)
    fun _ => (sendToUser s.target e h).trans
      (count (fun n => { n with signalsRelayed := n.signalsRelayed + 1 })
        (Hub.sendToUser s.target e h).1)

def reportMedia (p : Peer) (r : MediaReport) (h : Hub) : Trail h (h.reportMedia p r) :=
  branch id (fun _ => broadcastToRoom r.channel _ _ h) fun _ => refl h

def handle (p : Peer) : (c : Command) → (h : Hub) → Trail h (h.handle p c)
  | .subscribe channel, h => branch id (fun _ => touch p (.view channel) h) fun _ => refl h
  | .typing channel, h => branch id (fun _ => broadcastToChannel channel _ h) fun _ => refl h
  | .voiceJoin channel, h => branch id (fun _ => joinRoom p channel h) fun _ => refl h
  | .voiceLeave channel, h => branch id (fun _ => leaveRoom p channel h) fun _ => refl h
  | .signal kind s, h => branch id (fun _ => relaySignal p kind s h) fun _ => refl h
  | .mediaState report, h => branch id (fun _ => reportMedia p report h) fun _ => refl h
  | .ping, h => branch id (fun _ => sendTo p .pong h) fun _ => refl h
  | .unknown _, h => branch id (fun _ => refl h) fun _ => refl h

/-- An operation on a connection of the table, if there is one of that number. -/
def withPeer (c : Nat) {f : Peer → Hub × Outcome} (t : (p : Peer) → Trail h (f p).1) :
    Trail h (h.withPeer c f).1 :=
  match hpeer : h.peer? c with
  | some p => (t p).cast (by simp only [Hub.withPeer, hpeer])
  | none => (refl h).cast (by simp only [Hub.withPeer, hpeer])

theorem moves_withPeer {c : Nat} {p : Peer} {f : Peer → Hub × Outcome}
    (t : (p : Peer) → Trail h (f p).1) (hp : h.peer? c = some p) :
    (withPeer c t).moves = (t p).moves := by
  rw [withPeer]
  split
  next q hq =>
    obtain rfl := Option.some.inj (hp.symm.trans hq)
    rfl
  next hnone => exact absurd (hp.symm.trans hnone) (Option.some_ne_none p)

def register (p : Peer) (h : Hub) : Trail h (h.register p) :=
  (one (.enlist p) h).trans ((touch p .activate _).trans
    (count (fun n => { n with connections := n.connections + 1 }) _))

def connect (user : UserId) (h : Hub) : Trail h (h.perform (.connect user)).1 :=
  if hfull : h.limits.maxConnections ≤ h.registered.length then
    (refl h).cast (by simp only [Hub.perform, Hub.connect, hfull, if_true])
  else
    let made := h.create user h.limits.queueCapacity none
    ((one (.make user h.limits.queueCapacity none) h).trans (register made.2 made.1)).cast (by
      simp only [Hub.perform, Hub.connect, hfull, if_false]
      rfl)

/-- A frame that is refused leaves everything as it is. -/
def putText (p : Peer) (text : String) (h : Hub) : Trail h
    (match (h.connection p).queue.send (.text text) with
      | .ok q => (h.update p fun c => { c with queue := q }, Outcome.done)
      | .error e => (h, .failed e)).1 :=
  match hsend : (h.connection p).queue.send (.text text) with
  | .ok _ => (touch p (.put (.text text)) h).cast (update_put hsend)
  | .error _ => refl h

def take (p : Peer) (h : Hub) : Trail h
    (match (h.connection p).queue.take with
      | .frame f q => (h.update p fun c => { c with queue := q }, Outcome.taken (.frame f q))
      | t => (h, .taken t)).1 :=
  match htake : (h.connection p).queue.take with
  | .frame _ _ => (touch p .pull h).cast (update_pull htake)
  | .empty => refl h
  | .ended => refl h

def handleText (p : Peer) (text : String) (h : Hub) : Trail h
    (match h.handleText p text with
      | .ok h => (h, Outcome.done)
      | .error e => (h, .failed e)).1 :=
  match hdecode : Command.decode text with
  | .ok c => (handle p c h).cast (by simp only [Hub.handleText, hdecode, Except.map])
  | .error _ => (refl h).cast (by simp only [Hub.handleText, hdecode, Except.map])

def publishServerEvent (e : Event) (h : Hub) : Trail h (h.perform (.publishServerEvent e)).1 :=
  if hkind : e.kind.isServerWide = true then
    (broadcast e h).cast (by simp only [Hub.perform, Hub.publishServerEvent, hkind, if_true]; rfl)
  else (refl h).cast (by
    simp only [Hub.perform, Hub.publishServerEvent, hkind, if_false, Bool.false_eq_true])

def perform (h : Hub) : (op : Operation) → Trail h (h.perform op).1
  | .connect user => connect user h
  | .create user capacity name => one (.make user capacity name) h
  | .register c => withPeer c fun p => register p h
  | .unregister c => withPeer c fun p => unregister p h
  | .activate c => withPeer c fun p => touch p .activate h
  | .beginClose c => withPeer c fun p => touch p .beginClose h
  | .closeQueue c => withPeer c fun p => touch p .closeQueue h
  | .markClosed c => withPeer c fun p => touch p .markClosed h
  | .view c channel => withPeer c fun p => touch p (.view channel) h
  | .abandon c => withPeer c fun p => touch p .abandon h
  | .handle c command => withPeer c fun p => handle p command h
  | .join c channel => withPeer c fun p => joinRoom p channel h
  | .leave c channel => withPeer c fun p => leaveRoom p channel h
  | .relay c kind s => withPeer c fun p => relaySignal p kind s h
  | .broadcast e => broadcast e h
  | .broadcastToChannel channel e => broadcastToChannel channel e h
  | .sendToUser user e => sendToUser user e h
  | .broadcastToRoom channel e none => broadcastToRoom channel e none h
  | .broadcastToRoom channel e (some c) => withPeer c fun p =>
      broadcastToRoom channel e (some p.id) h
  | .sendTo c e => withPeer c fun p => sendTo p e h
  | .publishMessage message digest =>
      (broadcastToChannel digest.channel ⟨.messageNew, .raw message⟩ h).trans
        (broadcast ⟨.messageActivity, .activity digest⟩ _)
  | .publishEdit channel message => broadcastToChannel channel ⟨.messageEdit, .raw message⟩ h
  | .publishDeletion channel message =>
      broadcastToChannel channel ⟨.messageDelete, .deletion ⟨message, channel⟩⟩ h
  | .publishReactions channel reactions =>
      broadcastToChannel channel ⟨.reactionUpdate, .raw reactions⟩ h
  | .enterRoom c channel => withPeer c fun p => one (.enter p channel) h
  | .exitRoom c channel => withPeer c fun p => one (.exit channel p.id) h
  | .exitRooms c => withPeer c fun p => one (.exitAll p.id) h
  | .send c frame => withPeer c fun p => putText p frame h
  | .take c => withPeer c fun p => take p h
  | .handleText c text => withPeer c fun p => handleText p text h
  | .publishServerEvent e => publishServerEvent e h

def run (h : Hub) : (ops : List Operation) → Trail h (Hub.run h ops)
  | [] => refl h
  | op :: ops => (perform h op).trans (run _ ops)

theorem moves_run_cons (h : Hub) (op : Operation) (ops : List Operation) :
    (run h (op :: ops)).moves = (perform h op).moves ++ (run (h.perform op).1 ops).moves := rfl

theorem moves_run_append (h : Hub) (ops ops' : List Operation) :
    (run h (ops ++ ops')).moves = (run h ops).moves ++ (run (Hub.run h ops) ops').moves := by
  induction ops generalizing h with
  | nil => rfl
  | cons op ops ih =>
    rw [List.cons_append, moves_run_cons, moves_run_cons, ih, List.append_assoc]
    rfl

end Trail

end Hub

end ChatHub
