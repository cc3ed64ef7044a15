import ChatHub.Proofs.Hub.History
/-!
Who gets to hear a signal.  Of all that can be asked of a hub only a relay puts signals into queues,
and it does so between two users who are in the room that the signal names.
-/

namespace ChatHub

/-- The three messages of a negotiation. -/
def Event.Kind.isSignal : Event.Kind → Bool
  | .voiceOffer | .voiceAnswer | .voiceIce => true
  | _ => false

def Frame.isSignal : Frame → Bool
  | .event e => e.kind.isSignal
  | .text _ => false

@[simp]
theorem SignalKind.isSignal_eventKind (kind : SignalKind) : kind.eventKind.isSignal = true := by
  cases kind with
  | offer => rfl
  | answer => rfl
  | ice => rfl

theorem Event.Kind.isSignal_of_isServerWide {k : Event.Kind} (hk : k.isServerWide = true) :
    k.isSignal = false := by
  cases k <;> first | rfl | cases hk

namespace Hub

/-- A signal as its target gets it. -/
def signalEvent (p : Peer) (kind : SignalKind) (s : Signal) : Event :=
  ⟨kind.eventKind, .signal ⟨s.channel, p.user, s.payload⟩⟩

/-- The two users are different, and each has a connection in the room that the signal names. -/
structure MaySignal (h : Hub) (p : Peer) (s : Signal) : Prop where
  other : s.target ≠ p.user
  sender : ∃ m ∈ h.rooms.members s.channel, m.user = p.user
  target : ∃ m ∈ h.rooms.members s.channel, m.user = s.target

/-- Operations that hand any event, or any text, to any queue. -/
def Operation.isRaw : Operation → Bool
  | .broadcast _ | .broadcastToChannel .. | .sendToUser .. | .broadcastToRoom .. | .sendTo ..
  | .send .. => true
  | _ => false

/-- Steps of a reader. -/
def Operation.isReading : Operation → Bool
  | .take _ | .abandon _ => true
  | _ => false

/-- The signal that an operation asks to be relayed, with the number of the connection that
asks. -/
def Operation.signal? : Operation → Option (Nat × SignalKind × Signal)
  | .relay c kind s => some (c, kind, s)
  | .handle c (.signal kind s) => some (c, kind, s)
  | .handleText c text =>
      match Command.decode text with
      | .ok (.signal kind s) => some (c, kind, s)
      | _ => none
  | _ => none

/-- In `h`, the operation relays the event as a signal to the user of the connection numbered
`i`. -/
def Relays (h : Hub) (op : Operation) (i : Nat) (e : Event) : Prop :=
  ∃ c kind s p, op.signal? = some (c, kind, s) ∧ h.peer? c = some p ∧ h.MaySignal p s ∧
    (h.perform op).1 = (h.relaySignal p kind s).1 ∧ e = signalEvent p kind s ∧
      ∃ x ∈ h.registered, x.handle = i ∧ x.user = s.target

/-- What an operation may put into the queue of the connection numbered `i`: events, and signals
among them only if it relays them. -/
def Admits (h : Hub) (op : Operation) (i : Nat) (f : Frame) : Prop :=
  ∃ e, f = .event e ∧ (e.kind.isSignal = true → h.Relays op i e)

section Gate

variable {h : Hub} {p : Peer} {s : Signal}

theorem maySignal_iff : h.MaySignal p s ↔
    (s.target == p.user || !h.rooms.areCoMembers s.channel p.user s.target) = false := by
  simp only [Rooms.areCoMembers, Bool.or_eq_false_iff, beq_eq_false_iff_ne,
    Bool.not_eq_false', Bool.and_eq_true, List.any_eq_true, beq_iff_eq]
  exact ⟨fun hm => ⟨hm.other, hm.sender, hm.target⟩, fun ⟨ho, hs, ht⟩ => ⟨ho, hs, ht⟩⟩

theorem relaySignal_of_maySignal (hm : h.MaySignal p s) (kind : SignalKind) :
    h.relaySignal p kind s =
      ((h.sendToUser s.target (signalEvent p kind s)).1.count
        fun n => { n with signalsRelayed := n.signalsRelayed + 1 },
        .forwarded (h.sendToUser s.target (signalEvent p kind s)).2) := by
  simp only [relaySignal, maySignal_iff.mp hm, Bool.false_eq_true, if_false]
  rfl

/-- A signal that does not get through leaves no trace but in its counter. -/
theorem relaySignal_of_not_maySignal (hm : ¬ h.MaySignal p s) (kind : SignalKind) :
    h.relaySignal p kind s =
      (h.count fun n => { n with signalsDropped := n.signalsDropped + 1 }, .dropped) := by
  rw [maySignal_iff, Bool.not_eq_false] at hm
  simp only [relaySignal, hm, if_true]

end Gate

section Step

variable {h : Hub}

/-- A command puts signals into queues only by relaying them. -/
theorem Grows.handle {new : Nat → Frame → Prop} {p : Peer} {command : Command}
    (hplain : ∀ i (e : Event), e.kind.isSignal = false → new i (.event e))
    (hsignal : ∀ kind s, command = .signal kind s → (h.connection p).isOpen = true →
      h.MaySignal p s → ∀ q ∈ h.registered, q.user = s.target →
        new q.handle (.event (signalEvent p kind s))) :
    Grows new h (h.handle p command) := by
  have hleft (i : Nat) (channel : ChannelId) (user : UserId) : new i (leftFrame channel user) :=
    hplain i _ rfl
  unfold Hub.handle
  split
  next hopen =>
    cases command with
    | subscribe channel =>
      exact update new p h (fun _ => rfl) fun c => .view _ channel c
    | typing channel => exact broadcastToChannel hleft h fun _ _ _ => hplain _ _ rfl
    | voiceJoin channel =>
      exact joinRoom hleft h (fun _ => hplain _ _ rfl) fun _ => hplain _ _ rfl
    | voiceLeave channel => exact leaveRoom hleft p channel h
    | signal kind s =>
      refine relaySignal hleft h fun hother hmembers => ?_
      refine hsignal kind s rfl hopen (maySignal_iff.mpr ?_)
      simp [hother, hmembers]
    | mediaState report => exact reportMedia hleft h fun _ _ _ => hplain _ _ rfl
    | ping => exact sendTo hleft h (hplain _ _ rfl)
    | unknown tag => exact refl new h
  next => exact refl new h

theorem admits_of_not_isSignal (h : Hub) (op : Operation) (i : Nat) {e : Event}
    (he : e.kind.isSignal = false) : h.Admits op i (.event e) :=
  ⟨e, rfl, fun hsignal => absurd hsignal (by simp [he])⟩

theorem Keyed.steps_withPeer (hk : h.Keyed) {reading : Bool} {new : Nat → Frame → Prop}
    (c : Nat) {f : Peer → Hub × Outcome}
    (hf : ∀ p, h.peer? c = some p → Steps reading new h (f p).1) :
    Steps reading new h (h.withPeer c f).1 := by
  rw [withPeer]
  split
  next p hp => exact hf p hp
  next => exact hk.steps_refl

/-- What each operation but the raw ones may do to the queues. -/
theorem Keyed.steps_perform (hk : h.Keyed) {op : Operation} (hop : op.isRaw = false) :
    Steps op.isReading (h.Admits op) h (h.perform op).1 := by
  have hplain (i : Nat) (e : Event) (he : e.kind.isSignal = false) :
      h.Admits op i (.event e) := admits_of_not_isSignal h op i he
  have hleft (i : Nat) (channel : ChannelId) (user : UserId) :
      h.Admits op i (leftFrame channel user) := hplain i _ rfl
  have hrelays {c : Nat} {p : Peer} {kind : SignalKind} {s : Signal} (hp : h.peer? c = some p)
      (hsignal : op.signal? = some (c, kind, s))
      (heq : (h.perform op).1 = (h.relaySignal p kind s).1) (hmay : h.MaySignal p s) :
      ∀ q ∈ h.registered, q.user = s.target →
        h.Admits op q.handle (.event (signalEvent p kind s)) :=
    fun q hq huser => ⟨_, rfl, fun _ =>
      ⟨c, kind, s, p, hsignal, hp, hmay, heq, rfl, q, hq, rfl, huser⟩⟩
  cases op with
  | connect user =>
    simp only [perform]
    split
    next hok => exact hk.steps_connect hok
    next => exact hk.steps_refl
  | create user capacity name => exact hk.steps_create user capacity name
  | register c =>
    exact hk.steps_withPeer c fun p hp => hk.steps_register (hk.knows_of_peer? hp)
  | unregister c =>
    exact hk.steps_withPeer c fun p _ => hk.steps_of_grows (Grows.unregister hleft p h)
  | activate c =>
    refine hk.steps_withPeer c fun p _ => hk.steps_of_grows ?_
    exact Grows.update _ p h peer_activate fun c => .activate _ c
  | beginClose c =>
    refine hk.steps_withPeer c fun p _ => hk.steps_of_grows ?_
    exact Grows.update _ p h peer_beginClose fun c => .beginClose _ c
  | closeQueue c =>
    refine hk.steps_withPeer c fun p _ => hk.steps_of_grows ?_
    exact Grows.update _ p h (fun _ => rfl) fun c => .closeQueue _ c
  | markClosed c =>
    refine hk.steps_withPeer c fun p _ => hk.steps_of_grows ?_
    exact Grows.update _ p h (fun _ => rfl) fun c => .markClosed _ c
  | view c channel =>
    refine hk.steps_withPeer c fun p _ => hk.steps_of_grows ?_
    exact Grows.update _ p h (fun _ => rfl) fun c => .view _ channel c
  | take c =>
    refine hk.steps_withPeer c fun p hp => ?_
    split
    next f q htake =>
      have hle : q.waiting.length ≤ (h.connection p).queue.waiting.length := by
        rw [(Queue.eq_cons_of_take htake).1]
        exact Nat.le_succ _
      exact hk.steps_read (hk.knows_of_peer? hp) (fun _ => rfl) (fun _ => rfl) hle
    next => exact hk.steps_refl
  | abandon c =>
    exact hk.steps_withPeer c fun p hp => hk.steps_read (hk.knows_of_peer? hp) (fun _ => rfl)
      (fun _ => rfl) (Nat.zero_le _)
  | handle c command =>
    refine hk.steps_withPeer c fun p hp => hk.steps_of_grows (Grows.handle hplain ?_)
    rintro kind s rfl hopen
    refine hrelays hp rfl ?_
    rw [perform_handle hp]
    simp only [Hub.handle, hopen, if_true]
  | handleText c text =>
    refine hk.steps_withPeer c fun p hp => ?_
    cases hdecode : Command.decode text with
    | error e =>
      simp only [handleText, hdecode]
      exact hk.steps_refl
    | ok command =>
      simp only [handleText, hdecode]
      refine hk.steps_of_grows (Grows.handle hplain ?_)
      rintro kind s rfl hopen
      refine hrelays hp ?_ ?_
      · simp only [Operation.signal?, hdecode]
      · rw [perform_handleText_of_ok hdecode, perform_handle hp]
        simp only [Hub.handle, hopen, if_true]
  | join c channel =>
    exact hk.steps_withPeer c fun p _ => hk.steps_of_grows
      (Grows.joinRoom hleft h (fun _ => hplain _ _ rfl) fun _ => hplain _ _ rfl)
  | leave c channel =>
    exact hk.steps_withPeer c fun p _ => hk.steps_of_grows (Grows.leaveRoom hleft p channel h)
  | relay c kind s =>
    refine hk.steps_withPeer c fun p hp => hk.steps_of_grows ?_
    refine Grows.relaySignal hleft h fun hother hmembers => ?_
    refine hrelays hp rfl ?_ (maySignal_iff.mpr ?_)
    · simp only [perform, withPeer, hp]
    · simp [hother, hmembers]
  | publishMessage message digest =>
    exact hk.steps_of_grows ((Grows.broadcastToChannel hleft h fun _ _ _ => hplain _ _ rfl).trans
      (Grows.broadcast hleft _ fun _ _ => hplain _ _ rfl))
  | publishEdit channel message =>
    exact hk.steps_of_grows (Grows.broadcastToChannel hleft h fun _ _ _ => hplain _ _ rfl)
  | publishDeletion channel message =>
    exact hk.steps_of_grows (Grows.broadcastToChannel hleft h fun _ _ _ => hplain _ _ rfl)
  | publishReactions channel reactions =>
    exact hk.steps_of_grows (Grows.broadcastToChannel hleft h fun _ _ _ => hplain _ _ rfl)
  | publishServerEvent e =>
    cases hkind : e.kind.isServerWide with
    | false =>
      simp only [perform, publishServerEvent, hkind, Bool.false_eq_true, if_false]
      exact hk.steps_refl
    | true =>
      simp only [perform, publishServerEvent, hkind, if_true]
      exact hk.steps_of_grows (Grows.broadcast hleft h fun _ _ =>
        hplain _ e (Event.Kind.isSignal_of_isServerWide hkind))
  | enterRoom c channel =>
    exact hk.steps_withPeer c fun p _ => hk.steps_of_grows (.of_table_eq rfl rfl (.refl _))
  | exitRoom c channel =>
    exact hk.steps_withPeer c fun p _ => hk.steps_of_grows (.of_table_eq rfl rfl (.refl _))
  | exitRooms c =>
    exact hk.steps_withPeer c fun p _ => hk.steps_of_grows (.of_table_eq rfl rfl (.refl _))
  | broadcast | broadcastToChannel | sendToUser | broadcastToRoom | sendTo | send => cases hop

end Step

section Forward

variable {h : Hub}

/-- What a delivery puts into a queue: first the frame, if there is room for it, and then no more
than the news of those who had to go. -/
theorem exists_gained_deliver (f : Frame) {targets : List Peer}
    (htargets : ∀ p ∈ targets, h.Knows p) (hnodup : targets.Nodup) {x : Peer} (hx : h.Knows x) :
    ∃ news, gained h (deliver f targets h).1 x =
        (if x ∈ targets ∧ (h.connection x).isOpen = true ∧ 0 < (h.connection x).queue.free
          then [f] else []) ++ news ∧
      ∀ g ∈ news, ∃ channel user, g = leftFrame channel user := by
  let sent := record (push f targets h)
  have hlater : Grows (fun _ g => ∃ channel user, g = leftFrame channel user) sent
      (deliver f targets h).1 := by
    simp only [deliver]
    split
    next => exact .refl _ _
    next => exact .drain (fun _ channel user => ⟨channel, user, rfl⟩) _
  obtain ⟨news, hnews, hall⟩ := (hlater.connection x).waiting
  refine ⟨news, gained_eq_of_append ?_, hall⟩
  have hfirst : (sent.connection x).queue.waiting = (h.connection x).queue.waiting ++
      if x ∈ targets ∧ (h.connection x).isOpen = true ∧ 0 < (h.connection x).queue.free
        then [f] else [] := by
    change ((push f targets h).hub.connection x).queue.waiting = _
    by_cases hmem : x ∈ targets
    · rw [push_connection_of_mem f h (handles_nodup htargets hnodup)
        ((hx.mem_handles_iff htargets).mpr hmem), Connection.waiting_offer]
      simp only [hmem, true_and]
    · have hout : x.handle ∉ targets.map Peer.handle :=
        fun hin => hmem ((hx.mem_handles_iff htargets).mp hin)
      rw [push_connection_of_not_mem f h hout]
      simp only [hmem, false_and, if_false, List.append_nil]
  rw [hnews, hfirst, List.append_assoc]

/-- The connections that a signal reaches. -/
theorem Keyed.relaySignal_forwards (hk : h.Keyed) {p : Peer} {s : Signal}
    (hm : h.MaySignal p s) (kind : SignalKind) :
    (h.relaySignal p kind s).2 = .forwarded (h.registered.countP fun x =>
        x.user = s.target ∧ (h.connection x).state = .active ∧
          0 < (h.connection x).queue.free) ∧
      ∀ x, h.Knows x → (gained h (h.relaySignal p kind s).1 x).filter Frame.isSignal =
        if x ∈ h.registered ∧ x.user = s.target ∧ (h.connection x).state = .active ∧
            0 < (h.connection x).queue.free
          then [.event (signalEvent p kind s)] else [] := by
  have hknown : ∀ x ∈ h.registered.filter (·.user == s.target), h.Knows x :=
    fun x hx => hk.known x (List.mem_filter.mp hx).1
  have hnodup : (h.registered.filter (·.user == s.target)).Nodup :=
    hk.registered_nodup.filter _
  rw [relaySignal_of_maySignal hm]
  constructor
  · change Relayed.forwarded (push _ _ h).delivered = _
    rw [push_delivered _ h (handles_nodup hknown hnodup), List.countP_filter]
    congr 1
    apply List.countP_congr
    intro x hx
    simp only [Bool.and_eq_true, beq_iff_eq, decide_eq_true_eq, hk.isOpen_iff hx]
    tauto
  · intro x hx
    obtain ⟨news, hnews, hall⟩ :=
      exists_gained_deliver (.event (signalEvent p kind s)) hknown hnodup hx
    have hquiet : news.filter Frame.isSignal = [] := by
      rw [List.filter_eq_nil_iff]
      intro g hg
      obtain ⟨channel, user, rfl⟩ := hall g hg
      exact Bool.false_ne_true
    change (gained h (deliver _ _ h).1 x).filter Frame.isSignal = _
    rw [hnews, List.filter_append, hquiet, List.append_nil]
    by_cases hreg : x ∈ h.registered
    · simp only [List.mem_filter, hreg, true_and, beq_iff_eq, hk.isOpen_iff hreg]
      split
      next => simp [Frame.isSignal, signalEvent]
      next => rfl
    · simp only [List.mem_filter, hreg, false_and, if_false, List.filter_nil]

end Forward

section Run

variable {h : Hub} (hk : h.Keyed) {ops : List Operation}
  (hops : ∀ op ∈ ops, op.isRaw = false)

include hk hops

theorem Keyed.run : (run h ops).Keyed ∧
    ∀ i p, h.peer? i = some p → (Hub.run h ops).peer? i = some p := by
  induction ops generalizing h with
  | nil => exact ⟨hk, fun _ _ hp => hp⟩
  | cons op ops ih =>
    have hstep := hk.steps_perform (hops op List.mem_cons_self)
    have hrest := ih hstep.keyed fun o ho => hops o (List.mem_cons_of_mem op ho)
    exact ⟨hrest.1, fun i p hp => hrest.2 i p (hstep.peer? i p hp)⟩

/-- Whatever arrives has been admitted by one of the steps. -/
theorem Keyed.exists_admits {x : Peer} {f : Frame} (hf : f ∈ arrivals x h ops) :
    ∃ before op after, ops = before ++ op :: after ∧
      f ∈ gained (Hub.run h before) (Hub.run h (before ++ [op])) x ∧
        (Hub.run h before).Admits op x.handle f := by
  obtain ⟨before, op, after, rfl, hgained⟩ := exists_step_of_mem_arrivals h hf
  have hbefore := hk.run fun o ho => hops o (List.mem_append_left _ ho)
  have hop := hops op (List.mem_append_right before List.mem_cons_self)
  refine ⟨before, op, after, rfl, ?_, (hbefore.1.steps_perform hop).new x f hgained⟩
  rw [run_concat]
  exact hgained

end Run

/-- Every signal that ever gets into a queue is relayed there, at a moment when the one who sends it
and the one who gets it are different users with a connection each in the room that it names.  A
relay at such a moment reaches, once, every active connection of the target that has room, and no
other; at any other moment it only counts as dropped. -/
theorem signals_stay_in_rooms (limits : Limits) {ops : List Operation}
    (hops : ∀ op ∈ ops, op.isRaw = false) :
    (∀ x f, (run (new limits) ops).Knows x → f ∈ arrivals x (new limits) ops →
      ∃ e, f = .event e ∧ (e.kind.isSignal = true → ∃ before op after,
        ops = before ++ op :: after ∧
          f ∈ gained (run (new limits) before) (run (new limits) (before ++ [op])) x ∧
            ∃ c kind s p, op.signal? = some (c, kind, s) ∧
              (run (new limits) before).peer? c = some p ∧
              run (new limits) (before ++ [op]) =
                ((run (new limits) before).relaySignal p kind s).1 ∧
              e = signalEvent p kind s ∧ x.user = s.target ∧
              (run (new limits) before).MaySignal p s)) ∧
      (∀ before op, before ++ [op] <+: ops → ∀ x,
        let h := run (new limits) before
        let h' := run (new limits) (before ++ [op])
        if op.isReading then gained h h' x = []
        else (h'.connection x).queue.waiting =
          (h.connection x).queue.waiting ++ gained h h' x) ∧
      ∀ before, before <+: ops → ∀ p kind s,
        let h := run (new limits) before
        (h.MaySignal p s →
          (h.relaySignal p kind s).2 = .forwarded (h.registered.countP fun x =>
            x.user = s.target ∧ (h.connection x).state = .active ∧
              0 < (h.connection x).queue.free) ∧
          ∀ x, h.Knows x → (gained h (h.relaySignal p kind s).1 x).filter Frame.isSignal =
            if x ∈ h.registered ∧ x.user = s.target ∧ (h.connection x).state = .active ∧
                0 < (h.connection x).queue.free
              then [.event (signalEvent p kind s)] else []) ∧
        (¬ h.MaySignal p s → h.relaySignal p kind s =
          (h.count fun n => { n with signalsDropped := n.signalsDropped + 1 }, .dropped)) := by
  refine ⟨?_, ?_, ?_⟩
  · intro x f hx hf
    obtain ⟨before, op, after, heq, hgained, e, rfl, hadmits⟩ :=
      (keyed_new limits).exists_admits hops hf
    refine ⟨e, rfl, fun hsignal => ⟨before, op, after, heq, hgained, ?_⟩⟩
    obtain ⟨c, kind, s, p, hop, hp, hmay, hrelay, he, y, hy, hhandle, huser⟩ := hadmits hsignal
    have hbefore := (keyed_new limits).run fun o ho =>
      hops o (heq ▸ List.mem_append_left (op :: after) ho)
    have hsame : x = y := by
      have hlater := hbefore.1.run fun o ho =>
        hops o (heq ▸ List.mem_append_right before ho)
      have hknows := hlater.2 y.handle y (hbefore.1.known y hy)
      rw [← run_append, ← heq, hhandle] at hknows
      exact Option.some.inj (hx.symm.trans hknows)
    refine ⟨c, kind, s, p, hop, hp, ?_, he, hsame ▸ huser, hmay⟩
    rw [run_concat]
    exact hrelay
  · intro before op hbefore x
    have hk := ((keyed_new limits).run fun o ho =>
      hops o (hbefore.subset (List.mem_append_left _ ho))).1
    have hstep := hk.steps_perform
      (hops op (hbefore.subset (List.mem_append_right before List.mem_cons_self)))
    rw [run_concat]
    split
    next hreading => exact hstep.reads hreading x
    next hreading => exact hstep.waiting (Bool.eq_false_iff.mpr hreading) x
  · intro before hbefore p kind s
    have hk := ((keyed_new limits).run fun o ho => hops o (hbefore.subset ho)).1
    exact ⟨fun hmay => hk.relaySignal_forwards hmay kind,
      fun hnot => relaySignal_of_not_maySignal hnot kind⟩

/-- Ann calls Bob, who is in the room with her. -/
theorem offer_reaches_bob :
    let h := run (new .standard) [.connect "ann", .connect "bob", .join 0 "hall", .join 1 "hall"]
    (h.relaySignal ⟨0, .fresh 0, "ann"⟩ .offer ⟨"hall", "bob", none⟩).2 = .forwarded 1 := by
  intro h
  have hops : ∀ op ∈ [Operation.connect "ann", .connect "bob", .join 0 "hall", .join 1 "hall"],
      op.isRaw = false := by decide
  have hmay : h.MaySignal ⟨0, .fresh 0, "ann"⟩ ⟨"hall", "bob", none⟩ :=
    ⟨by decide, by decide +kernel, by decide +kernel⟩
  rw [(((signals_stay_in_rooms .standard hops).2.2 _ List.prefix_rfl _ .offer _).1 hmay).1]
  decide +kernel

end Hub

end ChatHub
