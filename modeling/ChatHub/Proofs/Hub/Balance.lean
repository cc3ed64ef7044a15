import ChatHub.Proofs.Hub.Accounting
import ChatHub.Proofs.Hub.Closing
/-!
Where the connections of a hub are.  Each that has ever been let in is in the set, or has been
evicted, or has been taken off by a call that was told so; and of a connection that is taken off
twice, only the first caller is told.
-/

namespace ChatHub

/-- Of distinct names, one goes at most. -/
theorem length_erasePeer {ps : List Peer} (hps : (ps.map Peer.id).Nodup) (id : ConnectionId) :
    (erasePeer id ps).length + (if ps.any (·.id == id) then 1 else 0) = ps.length := by
  induction ps with
  | nil => rfl
  | cons p ps ih =>
    simp only [List.map_cons, List.nodup_cons] at hps
    have hrest := ih hps.2
    simp only [erasePeer, List.filter_cons, List.any_cons, List.length_cons] at hrest ⊢
    by_cases heq : p.id = id
    · have hnone : ps.any (·.id == id) = false := by
        rw [List.any_eq_false]
        intro q hq hid
        exact hps.1 (List.mem_map.mpr ⟨q, hq, (beq_iff_eq.mp hid).trans heq.symm⟩)
      simp only [hnone, Bool.false_eq_true, if_false] at hrest
      simp only [heq, bne_self_eq_false, Bool.false_eq_true, if_false, beq_self_eq_true,
        Bool.true_or, if_true]
      omega
    · simp only [bne_iff_ne.mpr heq, if_true, beq_eq_false_iff_ne.mpr heq, Bool.false_or,
        List.length_cons]
      omega

theorem insertPeer_of_forall_ne {p : Peer} {ps : List Peer} (hne : ∀ q ∈ ps, q.id ≠ p.id) :
    insertPeer p ps = ps ++ [p] := by
  have hnone : ps.any (·.id == p.id) = false := by
    rw [List.any_eq_false]
    exact fun q hq hid => hne q hq (beq_iff_eq.mp hid)
  rw [insertPeer, hnone, if_neg Bool.false_ne_true]

namespace Hub

/-- A change from `h₀` to `h` that lets nobody into the set: of those who are off it since,
`dismissed` have been taken off on request, and the others have been counted as evicted. -/
structure Ledger (h₀ : Hub) (dismissed : Nat) (h : Hub) : Prop where
  ids_nodup : (h.registered.map Peer.id).Nodup
  registered : h.registered.Sublist h₀.registered
  connections_eq : h.counters.connections = h₀.counters.connections
  census_eq : h.census + dismissed = h₀.census

namespace Ledger

variable {h₀ h h' : Hub} {n : Nat}

theorem start (hids : (h.registered.map Peer.id).Nodup) : Ledger h 0 h :=
  ⟨hids, .refl _, rfl, rfl⟩

variable (hl : Ledger h₀ n h)

include hl

/-- Whatever else changes. -/
theorem keep (hregistered : h'.registered = h.registered)
    (hconnections : h'.counters.connections = h.counters.connections)
    (hevicted : h'.counters.evicted = h.counters.evicted) : Ledger h₀ n h' where
  ids_nodup := hregistered ▸ hl.ids_nodup
  registered := hregistered ▸ hl.registered
  connections_eq := hconnections.trans hl.connections_eq
  census_eq := by
    rw [← hl.census_eq, census, census, hregistered, hevicted]

theorem update (p : Peer) (f : Connection → Connection) : Ledger h₀ n (h.update p f) :=
  hl.keep rfl rfl rfl

theorem push (f : Frame) (ts : List Peer) : Ledger h₀ n (record (Hub.push f ts h)) := by
  refine hl.keep (offer_registered f ts h) ?_ ?_
  · rw [record, count, push_counters]
  · rw [record, count, push_counters]

theorem offer (f : Frame) (ts : List Peer) : Ledger h₀ n (offer f ts h).1 := hl.push f ts

theorem strike (p : Peer) :
    Ledger h₀ (n + if h.isRegistered p then 1 else 0)
      { h with registered := erasePeer p.id h.registered } where
  ids_nodup := hl.ids_nodup.sublist (List.filter_sublist.map _)
  registered := List.filter_sublist.trans hl.registered
  connections_eq := hl.connections_eq
  census_eq := by
    have hlength : (erasePeer p.id h.registered).length + (if h.isRegistered p then 1 else 0) =
        h.registered.length := length_erasePeer hl.ids_nodup p.id
    rw [← hl.census_eq]
    simp only [census]
    omega

/-- One who is off the set is counted as evicted, instead of as taken off on request. -/
theorem evicted {m : Nat} (hn : n = m + 1) :
    Ledger h₀ m (h.count fun c => { c with evicted := c.evicted + 1 }) where
  ids_nodup := hl.ids_nodup
  registered := hl.registered
  connections_eq := hl.connections_eq
  census_eq := by
    have hcensus := hl.census_eq
    simp only [census, count] at hcensus ⊢
    omega

/-- Whatever way the announcements of a removal take, it takes off one connection at most, if the
way takes off nobody. -/
theorem remove {via : Delivery}
    (hvia : ∀ f ts {n h}, Ledger h₀ n h → Ledger h₀ n (via f ts h).1) (p : Peer) :
    Ledger h₀ (n + if (remove via p h).2 then 1 else 0) (remove via p h).1 := by
  have hannounced (channels : List ChannelId) {n : Nat} {g : Hub} (hg : Ledger h₀ n g) :
      Ledger h₀ n (channels.foldl (fun g channel => announceLeft via p.user channel g) g) := by
    induction channels generalizing g with
    | nil => exact hg
    | cons channel channels ih => exact ih (hvia _ _ (hvia _ _ hg))
  have hdetached : Ledger h₀ (n + if h.isRegistered p then 1 else 0) (h.detach p) :=
    (hl.strike p).keep rfl rfl rfl
  rw [remove_eq]
  exact (hannounced _ hdetached).update p Connection.markClosed

theorem evict (p : Peer) : Ledger h₀ n (evict p h) := by
  have hremoved := hl.remove (fun f ts _ _ hg => hg.offer f ts) p
  simp only [Hub.evict]
  split
  next hreg =>
    rw [if_pos hreg] at hremoved
    exact hremoved.evicted rfl
  next hout =>
    rw [if_neg hout] at hremoved
    exact hremoved

theorem evictPending : Ledger h₀ n h.evictPending := by
  induction h using Hub.evictPending.induct with
  | case1 h hnil =>
    rw [evictPending_of_nil hnil]
    exact hl
  | case2 h p rest hcons ih =>
    rw [evictPending_of_cons hcons]
    have hpopped : Ledger h₀ n { h with pending := rest } := hl.keep rfl rfl rfl
    exact ih (hpopped.evict p)

theorem drain : Ledger h₀ n h.drain := by
  rw [Hub.drain]
  split
  next => exact hl
  next =>
    have hstarted : Ledger h₀ n { h with draining := true } := hl.keep rfl rfl rfl
    exact hstarted.evictPending.keep rfl rfl rfl

theorem deliver (f : Frame) (ts : List Peer) : Ledger h₀ n (deliver f ts h).1 := by
  simp only [Hub.deliver]
  split
  next => exact hl.push f ts
  next => exact (hl.push f ts).drain

theorem unregister (p : Peer) :
    Ledger h₀ (n + if (h.unregister p).2 then 1 else 0) (h.unregister p).1 :=
  hl.remove (fun f ts _ _ hg => hg.deliver f ts) p

theorem joinRoom (p : Peer) (channel : ChannelId) : Ledger h₀ n (h.joinRoom p channel).1 := by
  rw [Hub.joinRoom]
  split
  next => exact hl
  next rooms users _ =>
    have hentered : Ledger h₀ n { h with rooms } := hl.keep rfl rfl rfl
    have hsent := hentered.deliver (.event ⟨.voiceRoomState, .roomState ⟨channel, users⟩⟩) [p]
    simp only
    split
    next => exact hsent
    next => exact (hsent.deliver _ _).deliver _ _

theorem leaveRoom (p : Peer) (channel : ChannelId) : Ledger h₀ n (h.leaveRoom p channel).1 := by
  simp only [Hub.leaveRoom]
  split
  next =>
    have hleft : Ledger h₀ n { h with rooms := (h.rooms.leave channel p.id).1 } :=
      hl.keep rfl rfl rfl
    exact (hleft.deliver _ _).deliver _ _
  next => exact hl

theorem relaySignal (p : Peer) (kind : SignalKind) (s : Signal) :
    Ledger h₀ n (h.relaySignal p kind s).1 := by
  rw [Hub.relaySignal]
  split
  next => exact hl.keep rfl rfl rfl
  next => exact (hl.deliver _ _).keep rfl rfl rfl

theorem reportMedia (p : Peer) (r : MediaReport) : Ledger h₀ n (h.reportMedia p r) := by
  rw [Hub.reportMedia]
  split
  next => exact hl.deliver _ _
  next => exact hl

theorem handle (p : Peer) (c : Command) : Ledger h₀ n (h.handle p c) := by
  unfold Hub.handle
  split
  next =>
    cases c with
    | subscribe channel => exact hl.update p _
    | typing channel => exact hl.deliver _ _
    | voiceJoin channel => exact hl.joinRoom p channel
    | voiceLeave channel => exact hl.leaveRoom p channel
    | signal kind s => exact hl.relaySignal p kind s
    | mediaState report => exact hl.reportMedia p report
    | ping => exact hl.deliver _ _
    | unknown tag => exact hl
  next => exact hl

theorem withPeer (c : Nat) {f : Peer → Hub × Outcome} (hf : ∀ p, Ledger h₀ n (f p).1) :
    Ledger h₀ n (h.withPeer c f).1 := by
  rw [Hub.withPeer]
  split
  next p _ => exact hf p
  next => exact hl

end Ledger

/-- Nobody gets into the set by this operation, except in the way that the limit guards. -/
def Operation.entersByConnect : Operation → Bool
  | .create .. | .register _ => false
  | _ => true

/-- The operation is a call to take a connection off the hub, and the caller is told that it did. -/
def dismisses (h : Hub) (op : Operation) : Bool :=
  match op, (h.perform op).2 with
  | .unregister _, .flag b => b
  | _, _ => false

/-- How many calls to take a connection off the hub were told that they did. -/
def dismissals : Hub → List Operation → Nat
  | _, [] => 0
  | h, op :: ops => (if h.dismisses op then 1 else 0) + dismissals (h.perform op).1 ops

theorem perform_unregister {h : Hub} {i : Nat} {p : Peer} (hp : h.peer? i = some p) :
    h.perform (.unregister i) = ((h.unregister p).1, .flag (h.unregister p).2) := by
  simp only [perform, withPeer, hp]
  rfl

theorem Ledger.perform {h₀ h : Hub} {n : Nat} (hl : Ledger h₀ n h) {op : Operation}
    (hop : op.entersByConnect = true) (hconnect : ∀ user, op ≠ .connect user) :
    Ledger h₀ (n + if h.dismisses op then 1 else 0) (h.perform op).1 := by
  cases op with
  | connect user => exact absurd rfl (hconnect user)
  | create | register => cases hop
  | unregister c =>
    cases hp : h.peer? c with
    | none =>
      have hnothing : h.perform (.unregister c) = (h, .unknown) := by
        simp only [Hub.perform, Hub.withPeer, hp]
      simp only [dismisses, hnothing]
      exact hl
    | some p =>
      simp only [dismisses, perform_unregister hp]
      exact hl.unregister p
  | activate c | beginClose c | closeQueue c => exact hl.withPeer c fun p => hl.update p _
  | markClosed c | view c | abandon c => exact hl.withPeer c fun p => hl.update p _
  | send c frame =>
    refine hl.withPeer c fun p => ?_
    split
    next => exact hl.update p _
    next => exact hl
  | take c =>
    refine hl.withPeer c fun p => ?_
    split
    next => exact hl.update p _
    next => exact hl
  | handle c command => exact hl.withPeer c fun p => hl.handle p command
  | handleText c text =>
    refine hl.withPeer c fun p => ?_
    rw [Hub.handleText]
    cases Command.decode text with
    | error e => exact hl
    | ok command => exact hl.handle p command
  | join c channel => exact hl.withPeer c fun p => hl.joinRoom p channel
  | leave c channel => exact hl.withPeer c fun p => hl.leaveRoom p channel
  | relay c kind s => exact hl.withPeer c fun p => hl.relaySignal p kind s
  | broadcast | broadcastToChannel | sendToUser => exact hl.deliver _ _
  | broadcastToRoom channel e exclude =>
    cases exclude with
    | none => exact hl.deliver _ _
    | some c => exact hl.withPeer c fun p => hl.deliver _ _
  | sendTo c e => exact hl.withPeer c fun p => hl.deliver _ _
  | publishMessage message digest => exact (hl.deliver _ _).deliver _ _
  | publishEdit | publishDeletion | publishReactions => exact hl.deliver _ _
  | publishServerEvent e =>
    simp only [Hub.perform, Hub.publishServerEvent]
    cases e.kind.isServerWide with
    | false => exact hl
    | true => exact hl.deliver _ _
  | enterRoom c | exitRoom c | exitRooms c => exact hl.withPeer c fun p => hl.keep rfl rfl rfl

section Run

variable {h h' : Hub}

/-- No move ever changes what there may be of anything. -/
theorem Trail.limits_eq (t : Trail h h') : h'.limits = h.limits := by
  have hmoved (ms : List Move) (g : Hub) : (g.moved ms).limits = g.limits := by
    induction ms generalizing g with
    | nil => rfl
    | cons m ms ih =>
      refine (ih (g.move m)).trans ?_
      cases m with
      | make | touch | enlist | strike | enter | exit | exitAll | note => rfl
  rw [← t.moved_eq]
  exact hmoved t.moves h

/-- Connections are never forgotten. -/
theorem Trail.peer?_of_some (t : Trail h h') {i : Nat} {p : Peer} (hp : h.peer? i = some p) :
    h'.peer? i = some p := by
  obtain ⟨c, hc, rfl⟩ := Option.map_eq_some_iff.mp hp
  obtain ⟨c', hc', hage⟩ := t.ages hc
  rw [peer?, hc', Option.map_some, hage.peer_eq]

theorem Trail.table_length_le (t : Trail h h') : h.table.length ≤ h'.table.length := by
  by_contra hlt
  have hc := List.getElem?_eq_getElem (Nat.lt_of_not_le hlt)
  obtain ⟨c', hc', _⟩ := t.ages hc
  exact absurd (List.getElem?_eq_some_iff.mp hc').1 (Nat.lt_irrefl _)

end Run

/-- No two connections of the set share a name, and none has one that is still to be given. -/
structure Regular (h : Hub) : Prop where
  named : ∀ p ∈ h.registered, ∃ i < h.table.length, p.id = .fresh i
  ids_nodup : (h.registered.map Peer.id).Nodup
  length_le : h.registered.length ≤ h.limits.maxConnections

theorem regular_new (limits : Limits) : (new limits).Regular where
  named := by simp [new]
  ids_nodup := by simp [new]
  length_le := Nat.zero_le _

namespace Regular

variable {h : Hub} (ho : h.Regular)

include ho

/-- A new connection is put behind all others. -/
theorem registered_of_connect {user : UserId} {h' : Hub} {p : Peer}
    (hok : h.connect user = .ok (h', p)) : h'.registered = h.registered ++ [p] := by
  have hn := connected_of_connect hok
  rw [hn.registered]
  apply insertPeer_of_forall_ne
  intro q hq heq
  obtain ⟨i, hi, hid⟩ := ho.named q hq
  rw [hid, hn.peer_eq, ConnectionId.fresh.injEq] at heq
  omega

theorem connect {user : UserId} {h' : Hub} {p : Peer} (hok : h.connect user = .ok (h', p)) :
    h'.Regular := by
  have hn := connected_of_connect hok
  have hadded := ho.registered_of_connect hok
  have hlonger : h.table.length < h'.table.length := by
    have hlast := hn.knows.handle_lt
    rwa [hn.peer_eq] at hlast
  refine ⟨?_, ?_, ?_⟩
  · intro q hq
    rw [hadded, List.mem_append, List.mem_singleton] at hq
    rcases hq with hold | rfl
    · obtain ⟨i, hi, hid⟩ := ho.named q hold
      exact ⟨i, hi.trans hlonger, hid⟩
    · exact ⟨h.table.length, hlonger, by rw [hn.peer_eq]⟩
  · rw [hn.registered]
    exact ids_insertPeer_nodup ho.ids_nodup
  · rw [Hub.connect] at hok
    split at hok
    next => cases hok
    next hroom =>
      rw [hadded, hn.limits, List.length_append, List.length_singleton]
      omega

theorem perform {op : Operation} (hop : op.entersByConnect = true) :
    (h.perform op).1.Regular ∧
      (h.perform op).1.census + (if h.dismisses op then 1 else 0) +
          h.counters.connections =
        h.census + (h.perform op).1.counters.connections := by
  by_cases hconnect : ∃ user, op = .connect user
  · obtain ⟨user, rfl⟩ := hconnect
    simp only [Hub.perform, dismisses]
    split
    next h' p hok =>
      have hn := connected_of_connect hok
      refine ⟨ho.connect hok, ?_⟩
      simp only [census, ho.registered_of_connect hok, hn.counters, List.length_append,
        List.length_singleton, Bool.false_eq_true, if_false]
      omega
    next => exact ⟨ho, by simp⟩
  · have hl := (Ledger.start ho.ids_nodup).perform hop fun user heq => hconnect ⟨user, heq⟩
    have ht := Trail.perform h op
    refine ⟨⟨?_, hl.ids_nodup, ?_⟩, ?_⟩
    · intro p hp
      obtain ⟨i, hi, hid⟩ := ho.named p (hl.registered.subset hp)
      exact ⟨i, hi.trans_le ht.table_length_le, hid⟩
    · rw [ht.limits_eq]
      exact hl.registered.length_le.trans ho.length_le
    · have hcensus := hl.census_eq
      rw [hl.connections_eq]
      omega

theorem run {ops : List Operation} (hops : ∀ op ∈ ops, op.entersByConnect = true) :
    (h.run ops).Regular ∧
      (h.run ops).census + dismissals h ops + h.counters.connections =
        h.census + (h.run ops).counters.connections := by
  induction ops generalizing h with
  | nil => exact ⟨ho, rfl⟩
  | cons op ops ih =>
    obtain ⟨hfirst, hone⟩ := ho.perform (hops op List.mem_cons_self)
    obtain ⟨hlast, hrest⟩ := ih hfirst fun o hin => hops o (List.mem_cons_of_mem op hin)
    refine ⟨hlast, ?_⟩
    have hrun : h.run (op :: ops) = (h.perform op).1.run ops := rfl
    rw [hrun, dismissals]
    omega

end Regular

end Hub

end ChatHub
