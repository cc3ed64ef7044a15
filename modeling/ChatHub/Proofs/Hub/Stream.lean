import ChatHub.Proofs.Hub.Balance
import ChatHub.Proofs.Hub.Telling
/-!
What goes into a queue comes out of it, in the same order.  Of all moves one alone puts a frame into
a queue and two alone take frames out, and these two are the reader's own; so whatever is asked of a
hub, a queue only ever gets longer at its end, and what has been read and what still waits add up to
what was accepted.
-/

namespace ChatHub

theorem Queue.of_send_eq_ok {q q' : Queue} {f : Frame} (hsend : q.send f = .ok q') :
    q.closed = false ∧ q.abandoned = false ∧ q.waiting.length < q.capacity ∧
      q' = { q with waiting := q.waiting ++ [f] } := by
  rw [Queue.send] at hsend
  split at hsend
  next => cases hsend
  next hgone =>
    split at hsend
    next => cases hsend
    next hroom =>
      rw [Bool.not_eq_true, Bool.or_eq_false_iff] at hgone
      exact ⟨hgone.1, hgone.2, Nat.lt_of_not_le hroom, (Except.ok.inj hsend).symm⟩

/-- A connection whose reader has taken so many frames, or all if there are less. -/
def Connection.unload (n : Nat) (c : Connection) : Connection :=
  { c with queue := { c.queue with waiting := c.queue.waiting.drop n } }

theorem Queue.take_eq_ended_iff {q : Queue} :
    q.take = .ended ↔ q.waiting = [] ∧ (q.closed || q.abandoned) = true := by
  cases hwaiting : q.waiting with
  | cons f fs => simp only [Queue.take, hwaiting, reduceCtorEq, false_and]
  | nil =>
    simp only [Queue.take, hwaiting, true_and]
    split
    next hgone => exact iff_of_true rfl hgone
    next hgone => exact iff_of_false Taken.noConfusion hgone

/-- A queue later on: of the same capacity, which it does not exceed, and without any frames if its
reader has gone. -/
structure Queue.Sequel (q q' : Queue) : Prop where
  capacity : q'.capacity = q.capacity
  abandoned : q.abandoned = true → q'.abandoned = true
  length_le : q.waiting.length ≤ q.capacity → q'.waiting.length ≤ q'.capacity
  forsaken : (q.abandoned = true → q.waiting = []) → q'.abandoned = true → q'.waiting = []

theorem Queue.Sequel.refl (q : Queue) : q.Sequel q := ⟨rfl, id, id, id⟩

namespace Hub

section Touch

/-- A reader's own doing. -/
def Touch.isReading : Touch → Bool
  | .pull | .abandon => true
  | _ => false

/-- The frame that a connection accepts when it is touched, if it is given one. -/
def Touch.accepted (c : Connection) : Touch → List Frame
  | .put f =>
      match c.queue.send f with
      | .ok _ => [f]
      | .error _ => []
  | _ => []

variable {t : Touch} {c : Connection}

/-- Whoever is no reader puts the frame that is accepted behind those that wait, and does nothing
else to them. -/
theorem Touch.waiting_apply (ht : t.isReading = false) :
    (t.apply c).queue.waiting = c.queue.waiting ++ t.accepted c := by
  cases t with
  | put f =>
    simp only [Touch.apply, Touch.accepted, Connection.put]
    cases hsend : c.queue.send f with
    | ok q => rw [(Queue.of_send_eq_ok hsend).2.2.2]
    | error e => exact (List.append_nil _).symm
  | activate =>
    simp only [Touch.apply, Touch.accepted, Connection.activate, List.append_nil]
    split <;> rfl
  | beginClose =>
    simp only [Touch.apply, Touch.accepted, List.append_nil, Connection.queue_beginClose]
  | closeQueue | markClosed | view => exact (List.append_nil _).symm
  | pull | abandon => cases ht

/-- A queue that is closed, or has lost its reader, accepts nothing. -/
theorem Touch.accepted_of_closed (hclosed : (c.queue.closed || c.queue.abandoned) = true)
    (t : Touch) : t.accepted c = [] := by
  cases t with
  | put f => simp only [Touch.accepted, Queue.send, hclosed, if_true]
  | _ => rfl

theorem Touch.sequel (t : Touch) (c : Connection) : c.queue.Sequel (t.apply c).queue := by
  cases t with
  | put f =>
    simp only [Touch.apply, Connection.put]
    cases hsend : c.queue.send f with
    | error e => exact .refl _
    | ok q =>
      obtain ⟨_, hreader, hroom, rfl⟩ := Queue.of_send_eq_ok hsend
      refine ⟨rfl, id, fun _ => ?_, fun _ hgone => ?_⟩
      · rw [List.length_append]
        exact hroom
      · exact absurd (hreader.symm.trans hgone) Bool.false_ne_true
  | pull =>
    simp only [Touch.apply, Connection.pull]
    cases htake : c.queue.take with
    | frame f q =>
      obtain ⟨hwaiting, hrest⟩ := Queue.eq_cons_of_take htake
      rw [hrest]
      refine ⟨rfl, id, fun hle => ?_, fun hforsaken hgone => ?_⟩
      · rw [hwaiting] at hle
        exact Nat.le_of_succ_le hle
      · rw [hforsaken hgone] at hwaiting
        cases hwaiting
    | empty => exact .refl _
    | ended => exact .refl _
  | abandon => exact ⟨rfl, fun _ => rfl, fun _ => Nat.zero_le _, fun _ _ => rfl⟩
  | activate =>
    simp only [Touch.apply, Connection.activate]
    split <;> exact .refl _
  | beginClose =>
    simp only [Touch.apply, Connection.queue_beginClose]
    exact .refl _
  | closeQueue => exact ⟨rfl, id, id, id⟩
  | markClosed | view => exact .refl _

end Touch

section Move

def Move.isReading : Move → Bool
  | .touch _ t => t.isReading
  | _ => false

/-- The frame that `x` accepts on a move, if it is given one. -/
def Move.accepted (x : Peer) (h : Hub) : Move → List Frame
  | .touch p t => if p.handle = x.handle then t.accepted (h.connection x) else []
  | _ => []

/-- The frames that `x` accepts on some moves. -/
def accepted (x : Peer) : Hub → List Move → List Frame
  | _, [] => []
  | h, m :: ms => m.accepted x h ++ accepted x (h.move m) ms

variable {h : Hub} {x : Peer} {c : Connection}

theorem accepted_append (x : Peer) (h : Hub) (ms ms' : List Move) :
    accepted x h (ms ++ ms') = accepted x h ms ++ accepted x (h.moved ms) ms' := by
  induction ms generalizing h with
  | nil => rfl
  | cons m ms ih =>
    rw [List.cons_append, accepted, accepted, ih, List.append_assoc]
    rfl

theorem waiting_move {m : Move} (hm : m.isReading = false) :
    ((h.move m).connection x).queue.waiting =
      (h.connection x).queue.waiting ++ m.accepted x h := by
  cases m with
  | touch p t =>
    by_cases heq : p.handle = x.handle
    · simp only [Move.accepted, heq, if_true]
      cases hc : h.table[x.handle]? with
      | none =>
        -- there is nobody to be touched
        have hnone : (h.connection x).queue.waiting = [] ∧ t.accepted (h.connection x) = [] := by
          rw [connection, hc]
          exact ⟨rfl, t.accepted_of_closed rfl⟩
        have hsame : (h.move (.touch p t)).connection x = h.connection x := by
          simp only [move, connection, update, List.getElem?_modify, hc, Option.map_eq_map,
            Option.map_none]
        rw [hsame, hnone.2, List.append_nil]
      | some c =>
        have hafter : (h.move (.touch p t)).connection x = t.apply (h.connection x) := by
          simp only [move, connection, update, List.getElem?_modify, heq, if_true, hc]
          rfl
        rw [hafter]
        exact Touch.waiting_apply hm
    · simp only [Move.accepted, heq, if_false, List.append_nil]
      exact congrArg (·.queue.waiting) (connection_update_of_ne p x _ h (Ne.symm heq))
  | make user capacity name =>
    exact (waiting_create user capacity name h x).trans (List.append_nil _).symm
  | enlist | strike | enter | exit | exitAll | note => exact (List.append_nil _).symm

theorem waiting_moved {ms : List Move} (hms : ∀ m ∈ ms, m.isReading = false) :
    ((h.moved ms).connection x).queue.waiting =
      (h.connection x).queue.waiting ++ accepted x h ms := by
  induction ms generalizing h with
  | nil => exact (List.append_nil _).symm
  | cons m ms ih =>
    have hrest := ih (h := h.move m) fun n hn => hms n (List.mem_cons_of_mem m hn)
    rw [accepted, ← List.append_assoc, ← waiting_move (hms m List.mem_cons_self)]
    exact hrest

theorem accepted_of_reading {m : Move} (hm : m.isReading = true) (x : Peer) (h : Hub) :
    m.accepted x h = [] := by
  cases m with
  | touch p t =>
    cases t with
    | pull | abandon => exact ite_self _
    | _ => cases hm
  | _ => cases hm

/-- A closed queue, or one without a reader, accepts nothing more. -/
theorem accepted_of_closed (hc : h.table[x.handle]? = some c)
    (hclosed : (c.queue.closed || c.queue.abandoned) = true) (ms : List Move) :
    accepted x h ms = [] := by
  induction ms generalizing h c with
  | nil => rfl
  | cons m ms ih =>
    have hnone : m.accepted x h = [] := by
      cases m with
      | touch p t =>
        rw [Move.accepted, connection, hc, Option.getD_some, t.accepted_of_closed hclosed, ite_self]
      | _ => rfl
    obtain ⟨c', hc', htouched⟩ := touched_move hc m
    have hclosed' : (c'.queue.closed || c'.queue.abandoned) = true := by
      rcases htouched with rfl | ⟨t, rfl⟩
      · exact hclosed
      · rw [Bool.or_eq_true] at hclosed ⊢
        exact hclosed.imp (t.ages c).closed (t.sequel c).abandoned
    rw [accepted, hnone, ih hc' hclosed']
    rfl

end Move

namespace Trail

section Results

variable {h a b : Hub} {p : Peer} {m : Move}

theorem moves_congr (hab : a = b) {t : Trail h a} {u : Trail h b} (htu : t ≍ u) :
    t.moves = u.moves := by
  subst hab
  rw [eq_of_heq htu]

theorem cast_heq (t : Trail h a) (hab : a = b) : t.cast hab ≍ t := by
  subst hab
  rfl

/- These two trails lead to a hub that is written with the very result that they branch on, so the
cases cannot be told apart under `moves`. -/

theorem eq_put_of_mem_putText {text : String} (hm : m ∈ (putText p text h).moves) :
    m = .touch p (.put (.text text)) := by
  fun_cases putText p text h with
  | case1 q hsend =>
    have hput : putText p text h ≍ touch p (.put (.text text)) h := by
      rw [putText]
      grind [cast_heq]
    rw [moves_congr (by simp only [hsend, Touch.apply, update_put hsend]) hput] at hm
    exact List.mem_singleton.mp hm
  | case2 e hsend =>
    have hput : putText p text h ≍ refl h := by
      rw [putText]
      grind
    rw [moves_congr (by simp only [hsend]) hput] at hm
    exact absurd hm List.not_mem_nil

theorem eq_pull_of_mem_take (hm : m ∈ (take p h).moves) : m = .touch p .pull := by
  fun_cases take p h with
  | case1 f q htake =>
    have hpull : take p h ≍ touch p .pull h := by
      rw [take]
      grind [cast_heq]
    rw [moves_congr (by simp only [htake, Touch.apply, update_pull htake]) hpull] at hm
    exact List.mem_singleton.mp hm
  | case2 htake | case3 htake =>
    have hpull : take p h ≍ refl h := by
      rw [take]
      grind
    rw [moves_congr (by simp only [htake]) hpull] at hm
    exact absurd hm List.not_mem_nil

theorem exists_mem_of_mem_withPeer {c : Nat} {f : Peer → Hub × Outcome}
    {t : (p : Peer) → Trail h (f p).1} (hm : m ∈ (withPeer c t).moves) :
    ∃ p, m ∈ (t p).moves := by
  cases hp : h.peer? c with
  | some p => exact ⟨p, moves_withPeer t hp ▸ hm⟩
  | none =>
    rw [withPeer] at hm
    split at hm
    next q hq => exact absurd (hp.symm.trans hq) (Option.some_ne_none q).symm
    next => exact absurd hm List.not_mem_nil

end Results

/-- No reader has a part in it. -/
def Unread {h h' : Hub} (t : Trail h h') : Prop := ∀ m ∈ t.moves, m.isReading = false

section Unread

variable {h h' h'' : Hub}

theorem unread_refl (h : Hub) : (refl h).Unread := fun _ hm => absurd hm List.not_mem_nil

theorem unread_one {m : Move} (hm : m.isReading = false) (h : Hub) : (one m h).Unread :=
  fun _ hn => List.mem_singleton.mp hn ▸ hm

theorem Unread.trans {t : Trail h h'} {u : Trail h' h''} (ht : t.Unread) (hu : u.Unread) :
    (t.trans u).Unread :=
  fun m hm => (List.mem_append.mp hm).elim (ht m) (hu m)

theorem Unread.cast {t : Trail h h'} (ht : t.Unread) (heq : h' = h'') : (t.cast heq).Unread := ht

theorem unread_branch {α : Type} {c : Prop} [Decidable c] {a b : α} {f : α → Hub}
    {t : c → Trail h (f a)} {u : ¬ c → Trail h (f b)} (ht : ∀ hc, (t hc).Unread)
    (hu : ∀ hc, (u hc).Unread) : (branch f t u).Unread :=
  moves_branch (fun ms => ∀ m ∈ ms, m.isReading = false) ht hu

theorem unread_push (f : Frame) (ps : List Peer) (h : Hub) : (push f ps h).Unread := by
  induction ps generalizing h with
  | nil => exact unread_refl h
  | cons p ps ih =>
    rw [push]
    split
    · split
      next => exact ((unread_one rfl h).trans (ih _)).cast _
      next => exact ((unread_one rfl h).trans (ih _)).cast _
    · exact (ih h).cast _

theorem Unread.record {r : Pushed} {t : Trail h r.hub} (ht : t.Unread) : t.record.Unread :=
  ht.trans (unread_one rfl _)

section Removal

variable {via : Delivery} {walk : Of via} (hwalk : ∀ f ts h, (walk f ts h).Unread)

include hwalk

theorem unread_announceAll (user : UserId) (channels : List ChannelId) (h : Hub) :
    (announceAll walk user channels h).Unread := by
  induction channels generalizing h with
  | nil => exact unread_refl h
  | cons channel channels ih => exact ((hwalk _ _ h).trans (hwalk _ _ _)).trans (ih _)

theorem unread_remove (p : Peer) (h : Hub) : (remove walk p h).Unread := by
  have hdetach : (detach p h).Unread :=
    ((((unread_one rfl h).trans (unread_one rfl _)).trans (unread_one rfl _)).trans
      (unread_one rfl _)).cast _
  exact hdetach.trans ((unread_announceAll hwalk p.user _ _).trans (unread_one rfl _))

end Removal

theorem unread_evict (p : Peer) (h : Hub) : (evict p h).Unread := by
  have hremoved : (remove offer p h).Unread :=
    unread_remove (fun f ts h => (unread_push f ts h).record) p h
  exact unread_branch (fun _ => hremoved.trans (unread_one rfl _)) fun _ => hremoved

theorem unread_evictPending (h : Hub) : (evictPending h).Unread := by
  induction h using Hub.evictPending.induct with
  | case1 h hnil =>
    rw [Unread, moves_evictPending_of_nil hnil]
    exact fun _ hm => absurd hm List.not_mem_nil
  | case2 h p rest hcons ih =>
    rw [Unread, moves_evictPending_of_cons hcons]
    exact ((unread_one rfl h).trans ((unread_evict p _).trans ih))

theorem unread_deliver (f : Frame) (ts : List Peer) (h : Hub) : (deliver f ts h).Unread := by
  have hrecorded : (push f ts h).record.Unread := (unread_push f ts h).record
  refine unread_branch (fun _ => hrecorded) fun _ => hrecorded.trans ?_
  refine unread_branch (fun _ => unread_refl _) fun _ => ?_
  exact (unread_one rfl _).trans ((unread_evictPending _).trans (unread_one rfl _))

theorem unread_joinRoom (p : Peer) (channel : ChannelId) (h : Hub) :
    (joinRoom p channel h).Unread := by
  rw [joinRoom]
  split
  next => exact (unread_refl h).cast _
  next rooms users hjoin =>
    have hentered : (one (.enter p channel) h).Unread := unread_one rfl h
    refine (unread_branch (fun _ => ?_) fun _ => ?_).cast _
    · exact (hentered.cast _).trans (unread_deliver _ _ _)
    · exact ((hentered.cast _).trans (unread_deliver _ _ _)).trans
        ((unread_deliver _ _ _).trans (unread_deliver _ _ _))

theorem unread_leaveRoom (p : Peer) (channel : ChannelId) (h : Hub) :
    (leaveRoom p channel h).Unread :=
  unread_branch
    (fun _ => (unread_one rfl h).trans ((unread_deliver _ _ _).trans (unread_deliver _ _ _)))
    fun _ => unread_refl h

theorem unread_relaySignal (p : Peer) (kind : SignalKind) (s : Signal) (h : Hub) :
    (relaySignal p kind s h).Unread :=
  unread_branch (fun _ => unread_one rfl h) fun _ =>
    (unread_deliver _ _ h).trans (unread_one rfl _)

theorem unread_handle (p : Peer) (c : Command) (h : Hub) : (handle p c h).Unread := by
  cases c with
  | subscribe channel => exact unread_branch (fun _ => unread_one rfl h) fun _ => unread_refl h
  | typing channel => exact unread_branch (fun _ => unread_deliver _ _ h) fun _ => unread_refl h
  | voiceJoin channel =>
    exact unread_branch (fun _ => unread_joinRoom p channel h) fun _ => unread_refl h
  | voiceLeave channel =>
    exact unread_branch (fun _ => unread_leaveRoom p channel h) fun _ => unread_refl h
  | signal kind s =>
    exact unread_branch (fun _ => unread_relaySignal p kind s h) fun _ => unread_refl h
  | mediaState report =>
    have hreport : (reportMedia p report h).Unread :=
      unread_branch (fun _ => unread_deliver _ _ h) fun _ => unread_refl h
    exact unread_branch (fun _ => hreport) fun _ => unread_refl h
  | ping => exact unread_branch (fun _ => unread_deliver _ _ h) fun _ => unread_refl h
  | unknown tag => exact unread_branch (fun _ => unread_refl h) fun _ => unread_refl h

theorem unread_withPeer (c : Nat) {f : Peer → Hub × Outcome} {t : (p : Peer) → Trail h (f p).1}
    (ht : ∀ p, (t p).Unread) : (withPeer c t).Unread := by
  intro m hm
  obtain ⟨p, hm⟩ := exists_mem_of_mem_withPeer hm
  exact ht p m hm

theorem unread_register (p : Peer) (h : Hub) : (register p h).Unread :=
  (unread_one rfl h).trans ((unread_one rfl _).trans (unread_one rfl _))

theorem unread_connect (user : UserId) (h : Hub) : (connect user h).Unread := by
  rw [connect]
  split
  next => exact (unread_refl h).cast _
  next => exact ((unread_one rfl h).trans (unread_register _ _)).cast _

theorem unread_putText (p : Peer) (text : String) (h : Hub) : (putText p text h).Unread := by
  intro m hm
  rw [eq_put_of_mem_putText hm]
  rfl

theorem unread_handleText (p : Peer) (text : String) (h : Hub) :
    (handleText p text h).Unread := by
  rw [handleText]
  split
  next c _ => exact (unread_handle p c h).cast _
  next => exact (unread_refl h).cast _

theorem unread_publishServerEvent (e : Event) (h : Hub) : (publishServerEvent e h).Unread := by
  rw [publishServerEvent]
  split
  next => exact (unread_deliver _ _ h).cast _
  next => exact (unread_refl h).cast _

theorem unread_perform {op : Operation} (hop : op.isReading = false) (h : Hub) :
    (perform h op).Unread := by
  cases op with
  | connect user => exact unread_connect user h
  | create user capacity name => exact unread_one rfl h
  | register c => exact unread_withPeer c fun p => unread_register p h
  | unregister c => exact unread_withPeer c fun p => unread_remove unread_deliver p h
  | activate c | beginClose c | closeQueue c | markClosed c | view c =>
    exact unread_withPeer c fun p => unread_one rfl h
  | handle c command => exact unread_withPeer c fun p => unread_handle p command h
  | handleText c text => exact unread_withPeer c fun p => unread_handleText p text h
  | join c channel => exact unread_withPeer c fun p => unread_joinRoom p channel h
  | leave c channel => exact unread_withPeer c fun p => unread_leaveRoom p channel h
  | relay c kind s => exact unread_withPeer c fun p => unread_relaySignal p kind s h
  | send c frame => exact unread_withPeer c fun p => unread_putText p frame h
  | broadcast | broadcastToChannel | sendToUser | publishEdit | publishDeletion
  | publishReactions => exact unread_deliver _ _ h
  | broadcastToRoom channel e exclude =>
    cases exclude with
    | none => exact unread_deliver _ _ h
    | some c => exact unread_withPeer c fun p => unread_deliver _ _ h
  | sendTo c e => exact unread_withPeer c fun p => unread_deliver _ _ h
  | publishMessage message digest => exact (unread_deliver _ _ h).trans (unread_deliver _ _ _)
  | publishServerEvent e => exact unread_publishServerEvent e h
  | enterRoom c | exitRoom c | exitRooms c =>
    exact unread_withPeer c fun p => unread_one rfl h
  | take | abandon => cases hop

end Unread

end Trail

section Take

variable {h : Hub} {p : Peer}

theorem perform_take (hp : h.Knows p) :
    (h.perform (.take p.handle)).1 = h.update p (Connection.unload 1) := by
  rw [Knows] at hp
  simp only [perform, withPeer, hp]
  split
  next f q htake =>
    obtain ⟨hwaiting, hrest⟩ := Queue.eq_cons_of_take htake
    apply update_congr
    rw [Connection.unload, hwaiting, List.drop_one, List.tail_cons, ← hrest]
  next hnone =>
    have hempty : (h.connection p).queue.waiting.drop 1 = (h.connection p).queue.waiting := by
      cases hwaiting : (h.connection p).queue.waiting with
      | nil => rfl
      | cons f fs =>
        have htake : (h.connection p).queue.take =
            .frame f { (h.connection p).queue with waiting := fs } := by
          rw [Queue.take, hwaiting]
        exact absurd htake (hnone f _)
    symm
    apply update_eq_self
    rw [Connection.unload, hempty]

theorem perform_take_answer (hp : h.Knows p) :
    (h.perform (.take p.handle)).2 = .taken (h.connection p).queue.take := by
  rw [Knows] at hp
  simp only [perform, withPeer, hp]
  split
  next f q htake => rw [htake]
  next => rfl

theorem Knows.update {q : Peer} (hq : h.Knows q) {f : Connection → Connection}
    (hf : ∀ c, (f c).peer = c.peer) : (h.update p f).Knows q :=
  (peer?_update p f h hf q.handle).trans hq

/-- A reader that takes one frame after the other. -/
theorem run_replicate_take (n : Nat) (hp : h.Knows p) :
    h.run (List.replicate n (.take p.handle)) = h.update p (Connection.unload n) := by
  induction n generalizing h with
  | zero => exact (update_eq_self rfl).symm
  | succ n ih =>
    have hone : Knows (h.update p (Connection.unload 1)) p := hp.update fun _ => rfl
    have htwice : Connection.unload n ∘ Connection.unload 1 = Connection.unload (n + 1) := by
      funext c
      simp only [Function.comp_apply, Connection.unload, List.drop_drop, Nat.add_comm 1 n]
    calc h.run (List.replicate (n + 1) (.take p.handle))
        = (h.perform (.take p.handle)).1.run (List.replicate n (.take p.handle)) := rfl
      _ = (h.update p (Connection.unload 1)).update p (Connection.unload n) := by
          rw [perform_take hp, ih hone]
      _ = h.update p (Connection.unload (n + 1)) := by
          simp only [update, List.modify_modify_eq, htwice]

end Take

/-- The frame that an operation takes out of the queue of `x`, if it takes one. -/
def Operation.taken (x : Peer) : Operation → Outcome → List Frame
  | .take c, .taken (.frame f _) => if c = x.handle then [f] else []
  | _, _ => []

/-- The frames that are taken out of the queue of `x` in the course of a history. -/
def taken (x : Peer) : Hub → List Operation → List Frame
  | _, [] => []
  | h, op :: ops => op.taken x (h.perform op).2 ++ taken x (h.perform op).1 ops

/-- The reader of `x` has gone away. -/
def Forsaken (x : Peer) (h : Hub) : Prop :=
  ∃ c, h.table[x.handle]? = some c ∧ c.queue.abandoned = true

/-- Some frames have been taken from the queue of `x` and some been accepted for it, and nothing is
out of order: what was taken and what waits is what waited and what was accepted, unless the reader
leaves it. -/
structure Conserves (x : Peer) (taken accepted : List Frame) (h h' : Hub) : Prop where
  isPrefix : taken ++ (h'.connection x).queue.waiting <+:
    (h.connection x).queue.waiting ++ accepted
  eq : ¬ h'.Forsaken x → taken ++ (h'.connection x).queue.waiting =
    (h.connection x).queue.waiting ++ accepted

section Conserves

variable {h h' h'' : Hub} {x : Peer} {ts ts' as as' : List Frame}

theorem Conserves.of_eq (heq : ts ++ (h'.connection x).queue.waiting =
    (h.connection x).queue.waiting ++ as) : Conserves x ts as h h' :=
  ⟨heq ▸ List.prefix_rfl, fun _ => heq⟩

theorem Conserves.trans (hfirst : Conserves x ts as h h') (hnext : Conserves x ts' as' h' h'')
    (hstays : h'.Forsaken x → h''.Forsaken x ∧ as' = []) :
    Conserves x (ts ++ ts') (as ++ as') h h'' := by
  by_cases hgone : h'.Forsaken x
  · obtain ⟨hgone'', rfl⟩ := hstays hgone
    refine ⟨?_, fun hpresent => absurd hgone'' hpresent⟩
    rw [List.append_nil, List.append_assoc]
    have hrest := hnext.isPrefix
    rw [List.append_nil] at hrest
    exact ((List.prefix_append_right_inj ts).mpr hrest).trans hfirst.isPrefix
  · have hkept := hfirst.eq hgone
    have hjoin (ws : List Frame) (hws : ws = (h'.connection x).queue.waiting ++ as') :
        ts ++ ws = (h.connection x).queue.waiting ++ (as ++ as') := by
      rw [hws, ← List.append_assoc, hkept, List.append_assoc]
    refine ⟨?_, fun hpresent => ?_⟩
    · rw [List.append_assoc, ← hjoin _ rfl]
      exact (List.prefix_append_right_inj ts).mpr hnext.isPrefix
    · rw [List.append_assoc]
      exact hjoin _ (hnext.eq hpresent)

theorem Forsaken.moved (hgone : h.Forsaken x) (ms : List Move) : (h.moved ms).Forsaken x := by
  obtain ⟨c, hc, habandoned⟩ := hgone
  exact holds_moved (P := fun c => c.queue.abandoned = true)
    (fun t c => (t.sequel c).abandoned) hc habandoned ms

theorem Forsaken.accepted_eq_nil (hgone : h.Forsaken x) (ms : List Move) :
    accepted x h ms = [] := by
  obtain ⟨c, hc, habandoned⟩ := hgone
  exact accepted_of_closed hc (by rw [habandoned, Bool.or_true]) ms

theorem accepted_of_forall_reading {ms : List Move} (hms : ∀ m ∈ ms, m.isReading = true)
    (x : Peer) (h : Hub) : accepted x h ms = [] := by
  induction ms generalizing h with
  | nil => rfl
  | cons m ms ih =>
    rw [accepted, accepted_of_reading (hms m List.mem_cons_self),
      ih (fun n hn => hms n (List.mem_cons_of_mem m hn))]
    rfl

theorem accepted_perform_of_reading {op : Operation} (hop : op.isReading = true) (x : Peer)
    (h : Hub) : accepted x h (Trail.perform h op).moves = [] := by
  refine accepted_of_forall_reading (fun m hm => ?_) x h
  cases op with
  | take c =>
    obtain ⟨p, hm⟩ := Trail.exists_mem_of_mem_withPeer hm
    rw [Trail.eq_pull_of_mem_take hm]
    rfl
  | abandon c =>
    obtain ⟨p, hm⟩ := Trail.exists_mem_of_mem_withPeer hm
    rw [List.mem_singleton.mp hm]
    rfl
  | _ => cases hop

theorem Numbered.handle_eq (hn : h.Numbered) {i : Nat} {p : Peer} (hp : h.peer? i = some p) :
    p.handle = i := by
  obtain ⟨c, hc, rfl⟩ := Option.map_eq_some_iff.mp hp
  exact hn i c hc

theorem Operation.taken_take (x : Peer) (i : Nat) (q : Queue) :
    Operation.taken x (.take i) (.taken q.take) =
      if i = x.handle then q.waiting.take 1 else [] := by
  rw [Queue.take]
  split
  next f fs hwaiting =>
    rw [hwaiting]
    rfl
  next hwaiting =>
    rw [hwaiting, List.take_nil, ite_self]
    split
    next => rfl
    next => rfl

theorem conserves_take {p : Peer} (hp : h.Knows p) (x : Peer) :
    Conserves x (Operation.taken x (.take p.handle) (h.perform (.take p.handle)).2) [] h
      (h.perform (.take p.handle)).1 := by
  apply Conserves.of_eq
  rw [perform_take_answer hp, perform_take hp, Operation.taken_take, List.append_nil]
  by_cases heq : x.handle = p.handle
  · rw [if_pos heq.symm, connection_update_of_handle_eq p x _ h heq rfl,
      connection_eq_of_handle heq]
    exact List.take_append_drop 1 _
  · rw [if_neg (Ne.symm heq), connection_update_of_ne p x _ h heq, List.nil_append]

/-- What waits is lost with the reader, and nothing else ever is. -/
theorem conserves_abandon {p : Peer} (hp : h.Knows p) (x : Peer) :
    Conserves x [] [] h (h.perform (.abandon p.handle)).1 := by
  have habandoned : (h.perform (.abandon p.handle)).1 =
      h.update p fun c => { c with queue := c.queue.abandon } := by
    rw [Knows] at hp
    simp only [perform, withPeer, hp]
  rw [habandoned]
  by_cases heq : x.handle = p.handle
  · obtain ⟨c, hc, _⟩ := Option.map_eq_some_iff.mp hp
    have hgone : (h.update p fun c => { c with queue := c.queue.abandon }).table[x.handle]? =
        some { c with queue := c.queue.abandon } := by
      simp only [update, List.getElem?_modify, heq, if_true, hc]
      rfl
    refine ⟨?_, fun hpresent => absurd ⟨_, hgone, rfl⟩ hpresent⟩
    rw [connection, hgone]
    exact List.nil_prefix
  · apply Conserves.of_eq
    rw [connection_update_of_ne p x _ h heq, List.nil_append, List.append_nil]

theorem Numbered.conserves_perform (hn : h.Numbered) (x : Peer) (op : Operation) :
    Conserves x (op.taken x (h.perform op).2) (accepted x h (Trail.perform h op).moves) h
      (h.perform op).1 := by
  cases hop : op.isReading with
  | false =>
    have hnone : op.taken x (h.perform op).2 = [] := by
      cases op with
      | take => cases hop
      | _ => rfl
    rw [hnone]
    apply Conserves.of_eq
    rw [← waiting_moved (Trail.unread_perform hop h), (Trail.perform h op).moved_eq]
    rfl
  | true =>
    rw [accepted_perform_of_reading hop]
    cases op with
    | take c =>
      cases hp : h.peer? c with
      | none =>
        simp only [perform, withPeer, hp]
        exact .of_eq (List.append_nil _).symm
      | some p =>
        obtain rfl := hn.handle_eq hp
        exact conserves_take hp x
    | abandon c =>
      cases hp : h.peer? c with
      | none =>
        simp only [perform, withPeer, hp]
        exact .of_eq (List.append_nil _).symm
      | some p =>
        obtain rfl := hn.handle_eq hp
        exact conserves_abandon hp x
    | _ => cases hop

theorem Numbered.conserves_run (hn : h.Numbered) (x : Peer) (ops : List Operation) :
    Conserves x (taken x h ops) (accepted x h (Trail.run h ops).moves) h (h.run ops) := by
  induction ops generalizing h with
  | nil => exact .of_eq (List.append_nil _).symm
  | cons op ops ih =>
    rw [Trail.moves_run_cons, accepted_append, (Trail.perform h op).moved_eq]
    refine (hn.conserves_perform x op).trans (ih (hn.run [op])) fun hgone => ⟨?_, ?_⟩
    · rw [← (Trail.run h (op :: ops)).moved_eq, Trail.moves_run_cons, moved_append,
        (Trail.perform h op).moved_eq]
      exact hgone.moved _
    · exact hgone.accepted_eq_nil _

end Conserves

theorem accepted_run_of_reading {ops : List Operation} (hops : ∀ op ∈ ops, op.isReading = true)
    (x : Peer) (h : Hub) : accepted x h (Trail.run h ops).moves = [] := by
  induction ops generalizing h with
  | nil => rfl
  | cons op ops ih =>
    rw [Trail.moves_run_cons, accepted_append, (Trail.perform h op).moved_eq,
      accepted_perform_of_reading (hops op List.mem_cons_self),
      ih fun op' hop' => hops op' (List.mem_cons_of_mem op hop')]
    rfl

section Capacity

/-- How many frames there is to be room for, where an operation makes a connection. -/
def Operation.capacity? (limits : Limits) : Operation → Option Nat
  | .connect _ => some limits.queueCapacity
  | .create _ capacity _ => some capacity
  | _ => none

variable {h : Hub} {x : Peer} {c : Connection} {n : Nat}

theorem exists_of_made {op : Operation} (hcapacity : op.capacity? h.limits = some n) {i : Nat}
    (hmade : (h.perform op).2 = .made i) :
    ∃ c, (h.perform op).1.table[i]? = some c ∧ c.queue.capacity = max 1 n := by
  have hcreate (user : UserId) (name : Option String) :
      (h.create user n name).1.table[h.table.length]? =
        some (.new (h.create user n name).2 n) :=
    List.getElem?_concat_length
  cases op with
  | create user capacity name =>
    cases hcapacity
    cases hmade
    exact ⟨_, hcreate user name, rfl⟩
  | connect user =>
    cases hcapacity
    by_cases hfull : h.limits.maxConnections ≤ h.registered.length
    · simp only [perform, Hub.connect, hfull, if_true] at hmade
      cases hmade
    · simp only [perform, Hub.connect, hfull, if_false] at hmade ⊢
      cases hmade
      have hregister := Trail.register (h.create user h.limits.queueCapacity none).2
        (h.create user h.limits.queueCapacity none).1
      rw [← hregister.moved_eq]
      exact holds_moved (fun t c hkept => (t.sequel c).capacity.trans hkept) (hcreate user none)
        rfl _
  | _ => cases hcapacity

/-- There is room for what was asked for, for one frame at least, and no more than that waits. -/
theorem waiting_length_le (limits : Limits) {before after : List Operation} {op : Operation}
    (hcapacity : op.capacity? limits = some n)
    (hmade : (((new limits).run before).perform op).2 = .made x.handle) :
    (((new limits).run (before ++ op :: after)).connection x).queue.waiting.length ≤ max 1 n := by
  have hlimits : ((new limits).run before).limits = limits :=
    (Trail.run (new limits) before).limits_eq
  obtain ⟨c, hc, hroom⟩ := exists_of_made (hlimits ▸ hcapacity) hmade
  obtain ⟨c', hc', hroom'⟩ := holds_moved
    (fun t c hkept => (t.sequel c).capacity.trans hkept) hc hroom (Trail.run _ after).moves
  rw [(Trail.run _ after).moved_eq] at hc'
  have hend : (new limits).run (before ++ op :: after) =
      (((new limits).run before).perform op).1.run after :=
    run_append _ before (op :: after)
  have hnobody : ∀ (i : Nat) (c : Connection), (new limits).table[i]? = some c →
      c.queue.waiting.length ≤ c.queue.capacity := by
    intro i c hc
    simp [new] at hc
  have hfits := forall_moved (fun t c => (t.sequel c).length_le) (fun _ _ => Nat.zero_le _)
    hnobody (Trail.run (new limits) (before ++ op :: after)).moves
  rw [(Trail.run _ _).moved_eq, hend] at hfits
  rw [hend, connection, hc', Option.getD_some, ← hroom']
  exact hfits _ c' hc'

end Capacity

section Reader

variable {h : Hub} {x : Peer} {c : Connection} {ops : List Operation}

theorem Numbered.knows (hn : h.Numbered) (hc : h.table[x.handle]? = some c) :
    h.Knows c.peer ∧ c.peer.handle = x.handle := by
  have hhandle := hn _ c hc
  refine ⟨?_, hhandle⟩
  rw [Knows, peer?, hhandle, hc]
  rfl

theorem Numbered.taken_append_waiting (hn : h.Numbered)
    (hempty : (h.connection x).queue.waiting = []) (hc : (h.run ops).table[x.handle]? = some c)
    (hpresent : c.queue.abandoned = false) :
    taken x h ops ++ c.queue.waiting = accepted x h (Trail.run h ops).moves := by
  have hkept : ¬ (h.run ops).Forsaken x := by
    rintro ⟨c', hc', hgone⟩
    obtain rfl := Option.some.inj (hc.symm.trans hc')
    exact Bool.false_ne_true (hpresent.symm.trans hgone)
  have heq := (hn.conserves_run x ops).eq hkept
  rw [connection, hc, Option.getD_some] at heq
  rw [heq, hempty, List.nil_append]

/-- What is left in the queue is all that there is to be read yet. -/
theorem Numbered.taken_append_replicate_take (hn : h.Numbered)
    (hempty : (h.connection x).queue.waiting = []) (hc : (h.run ops).table[x.handle]? = some c)
    (hpresent : c.queue.abandoned = false) :
    taken x h (ops ++ List.replicate c.queue.waiting.length (.take x.handle)) =
      accepted x h (Trail.run h ops).moves := by
  obtain ⟨hknows, hhandle⟩ := (hn.run ops).knows hc
  have hlater : (h.run (ops ++ List.replicate c.queue.waiting.length
      (.take x.handle))).table[x.handle]? = some (c.unload c.queue.waiting.length) := by
    rw [run_append, ← hhandle, run_replicate_take _ hknows, Hub.update, List.getElem?_modify_eq,
      hhandle, hc]
    rfl
  have hnothing : accepted x (h.run ops) (Trail.run (h.run ops)
      (List.replicate c.queue.waiting.length (.take x.handle))).moves = [] :=
    accepted_run_of_reading (fun op hop => List.eq_of_mem_replicate hop ▸ rfl) x _
  have hall := hn.taken_append_waiting hempty hlater hpresent
  rw [Trail.moves_run_append, accepted_append, (Trail.run h ops).moved_eq, hnothing,
    List.append_nil] at hall
  rw [← hall, Connection.unload, List.drop_length, List.append_nil]

/-- The end shows when everything has been read. -/
theorem Numbered.perform_take_eq_ended_iff (hn : h.Numbered)
    (hempty : (h.connection x).queue.waiting = []) (hc : (h.run ops).table[x.handle]? = some c)
    (hpresent : c.queue.abandoned = false) :
    ((h.run ops).perform (.take x.handle)).2 = .taken .ended ↔
      c.queue.closed = true ∧ taken x h ops = accepted x h (Trail.run h ops).moves := by
  obtain ⟨hknows, hhandle⟩ := (hn.run ops).knows hc
  have hqueue : ((h.run ops).connection c.peer).queue = c.queue := by
    rw [connection, hhandle, hc, Option.getD_some]
  rw [← hhandle, perform_take_answer hknows, hqueue, Outcome.taken.injEq, Queue.take_eq_ended_iff,
    hpresent, Bool.or_false, ← hn.taken_append_waiting hempty hc hpresent, and_comm,
    List.self_eq_append_right]

end Reader

/-- Whatever is asked of a hub, a queue only gets longer at its end, and its reader alone takes from
its beginning.  So over a history what was taken and what waits is what was accepted, in order; a
close or an eviction loses nothing of it, and the end shows only after all of it. -/
theorem queues_keep_what_they_accept (limits : Limits) (ops : List Operation) (x : Peer) :
    let start := new limits
    let moves := (Trail.run start ops).moves
    (∀ (h : Hub) (op : Operation), h.moved (Trail.perform h op).moves = (h.perform op).1 ∧
        if op.isReading then accepted x h (Trail.perform h op).moves = []
        else ((h.perform op).1.connection x).queue.waiting =
          (h.connection x).queue.waiting ++ accepted x h (Trail.perform h op).moves) ∧
      start.moved moves = start.run ops ∧
      taken x start ops <+: accepted x start moves ∧
      (∀ before after c, before ++ after = ops →
        (start.run before).table[x.handle]? = some c → c.queue.closed = true →
        accepted x start moves = accepted x start (Trail.run start before).moves) ∧
      (∀ c, (start.run ops).table[x.handle]? = some c → c.queue.abandoned = false →
        taken x start ops ++ c.queue.waiting = accepted x start moves ∧
        taken x start (ops ++ List.replicate c.queue.waiting.length (.take x.handle)) =
          accepted x start moves ∧
        (((start.run ops).perform (.take x.handle)).2 = .taken .ended ↔
          c.queue.closed = true ∧ taken x start ops = accepted x start moves)) ∧
      ∀ before op after n, before ++ op :: after = ops → op.capacity? limits = some n →
        ((start.run before).perform op).2 = .made x.handle →
        ((start.run ops).connection x).queue.waiting.length ≤ max 1 n := by
  intro start moves
  have hn : start.Numbered := by
    intro i c hc
    simp [start, new] at hc
  have hempty : (start.connection x).queue.waiting = [] := rfl
  refine ⟨fun h op => ⟨(Trail.perform h op).moved_eq, ?_⟩, (Trail.run start ops).moved_eq,
    ?_, ?_, ?_, ?_⟩
  · cases hop : op.isReading with
    | true => exact accepted_perform_of_reading hop x h
    | false =>
      rw [if_neg Bool.false_ne_true, ← waiting_moved (Trail.unread_perform hop h),
        (Trail.perform h op).moved_eq]
  · exact (List.prefix_append _ _).trans (hn.conserves_run x ops).isPrefix
  · rintro before after c rfl hc hclosed
    have hnothing := accepted_of_closed hc (by rw [hclosed, Bool.true_or])
      (Trail.run (start.run before) after).moves
    rw [show moves = _ from Trail.moves_run_append start before after, accepted_append,
      (Trail.run start before).moved_eq, hnothing, List.append_nil]
  · exact fun c hc hpresent => ⟨hn.taken_append_waiting hempty hc hpresent,
      hn.taken_append_replicate_take hempty hc hpresent,
      hn.perform_take_eq_ended_iff hempty hc hpresent⟩
  · rintro before op after n rfl hcapacity hmade
    exact waiting_length_le limits hcapacity hmade

/-- Bob, who has room for two frames and has taken one, is evicted when a fourth comes, and still
reads the two that wait before he sees the end. -/
theorem bob_reads_on_after_eviction :
    let bob : Peer := ⟨1, .fresh 1, "bob"⟩
    let start := new ⟨2, 4⟩
    let ops : List Operation := [.connect "ann", .connect "bob", .broadcast .pong, .take 1,
      .broadcast (.joined "hall" "eve"), .broadcast (.left "hall" "eve"), .broadcast .pong]
    bob ∉ (start.run ops).registered ∧ taken bob start ops = [.event .pong] ∧
      taken bob start (ops ++ [.take 1, .take 1]) =
        [.event .pong, .event (.joined "hall" "eve"), .event (.left "hall" "eve")] ∧
      ((start.run (ops ++ [.take 1, .take 1])).perform (.take 1)).2 = .taken .ended := by
  intro bob start ops
  have hbob : (start.run ops).table[1]? = some ⟨bob, none, .closed,
      ⟨2, [.event (.joined "hall" "eve"), .event (.left "hall" "eve")], true, false⟩⟩ := by
    decide +kernel
  have hread : (start.run (ops ++ [.take 1, .take 1])).table[1]? =
      some ⟨bob, none, .closed, ⟨2, [], true, false⟩⟩ := by
    decide +kernel
  have haccepted : accepted bob start (Trail.run start ops).moves =
      [.event .pong, .event (.joined "hall" "eve"), .event (.left "hall" "eve")] := by
    decide +kernel
  obtain ⟨_, _, _, _, hkept, _⟩ := queues_keep_what_they_accept ⟨2, 4⟩ ops bob
  obtain ⟨_, _, _, _, hkept', _⟩ :=
    queues_keep_what_they_accept ⟨2, 4⟩ (ops ++ [.take 1, .take 1]) bob
  refine ⟨by decide +kernel, by decide +kernel, ?_, ?_⟩
  · exact (hkept _ hbob rfl).2.1.trans haccepted
  · refine (hkept' _ hread rfl).2.2.mpr ⟨rfl, ?_⟩
    rw [← (hkept' _ hread rfl).1, List.append_nil]

end Hub

end ChatHub
