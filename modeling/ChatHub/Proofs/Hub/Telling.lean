import ChatHub.Proofs.Hub.Consistency
import ChatHub.Proofs.Hub.Course
import ChatHub.Proofs.Hub.Trail
/-!
Of whose leaving somebody is told.  A frame that says that a user has left a room does not say
which of the user's connections that was; the moves of an operation do, since a connection leaves
its rooms before anybody hears of it, and nobody else leaves until all have heard.
-/

namespace ChatHub.Hub

/-- The name that leaves a room, or all rooms, on a move. -/
def Move.leaver? : Move → Option ConnectionId
  | .exit _ id | .exitAll id => some id
  | _ => none

/-- The frame that `o` is given on a move. -/
def Move.given? (o : Peer) : Move → Option Frame
  | .touch p (.put f) => if p = o then some f else none
  | _ => none

/-- The frames that `o` is given on some moves.  With each goes the name that has left a room last
by then; before the moves that is `last`. -/
def toldOf (o : Peer) : Option ConnectionId → List Move → List (Frame × Option ConnectionId)
  | _, [] => []
  | last, m :: ms =>
      ((m.given? o).toList.map fun f => (f, last)) ++ toldOf o (m.leaver?.or last) ms

/-- The name that has left a room last, after some moves. -/
def lastLeaver (last : Option ConnectionId) (ms : List Move) : Option ConnectionId :=
  ms.foldl (fun last m => m.leaver?.or last) last

theorem toldOf_append (o : Peer) (last : Option ConnectionId) (ms ms' : List Move) :
    toldOf o last (ms ++ ms') = toldOf o last ms ++ toldOf o (lastLeaver last ms) ms' := by
  induction ms generalizing last with
  | nil => rfl
  | cons m ms ih =>
    simp only [List.cons_append, toldOf, ih, lastLeaver, List.foldl_cons, List.append_assoc]

theorem lastLeaver_append (last : Option ConnectionId) (ms ms' : List Move) :
    lastLeaver last (ms ++ ms') = lastLeaver (lastLeaver last ms) ms' :=
  List.foldl_append

theorem WellFormed.offer {h : Hub} (hw : h.WellFormed) {f : Frame} {ts : List Peer} :
    (offer f ts h).1.WellFormed where
  known := fun p hp => (offer_peer? ..).trans (hw.known p (offer_registered f ts h ▸ hp))
  ids_nodup := (offer_registered f ts h).symm ▸ hw.ids_nodup
  rooms := (offer_rooms f ts h).symm ▸ hw.rooms
  members := by
    rw [offer_rooms, offer_registered]
    exact hw.members

/-- One that is open after frames have been offered to it has taken them. -/
theorem gained_of_offerAll {h h' : Hub} {o : Peer} {fs : List Frame}
    (hoffered : h'.connection o = (h.connection o).offerAll fs)
    (hopen : (h'.connection o).isOpen = true) : gained h h' o = fs := by
  have hbefore : (h.connection o).isOpen = true := by
    by_contra hclosed
    rw [hoffered, Connection.offerAll_of_not_open fs (Bool.eq_false_iff.mpr hclosed)] at hopen
    exact hclosed hopen
  apply gained_eq_of_append
  rw [hoffered] at hopen ⊢
  rw [Connection.offerAll_of_le_free hbefore ((Connection.isOpen_offerAll_iff fs hbefore).mp hopen)]
  rfl

namespace Trail

variable {h h' h'' : Hub} {o : Peer}

/-- What holds of either trail holds of the one that is chosen. -/
theorem moves_branch {α : Type} {c : Prop} [Decidable c] {a b : α} {f : α → Hub}
    {t : c → Trail h (f a)} {u : ¬ c → Trail h (f b)} (holds : List Move → Prop)
    (ht : ∀ hc, holds (t hc).moves) (hu : ∀ hc, holds (u hc).moves) :
    holds (branch f t u).moves := by
  unfold branch
  split
  next hc => exact ht hc
  next hc => exact hu hc

/-- Nobody leaves a room on the way, and `o` is told what its queue gains. -/
structure Still (o : Peer) (t : Trail h h') : Prop where
  waiting_eq : (h'.connection o).queue.waiting =
    (h.connection o).queue.waiting ++ gained h h' o
  told_eq : ∀ last, toldOf o last t.moves = (gained h h' o).map fun f => (f, last)
  lastLeaver_eq : ∀ last, lastLeaver last t.moves = last

namespace Still

theorem cast {t : Trail h h'} (hs : t.Still o) (heq : h' = h'') : (t.cast heq).Still o := by
  subst heq
  exact hs

theorem trans {t : Trail h h'} {u : Trail h' h''} (hs : t.Still o) (hu : u.Still o) :
    (t.trans u).Still o := by
  have hwaiting : (h''.connection o).queue.waiting =
      (h.connection o).queue.waiting ++ (gained h h' o ++ gained h' h'' o) := by
    rw [hu.waiting_eq, hs.waiting_eq, List.append_assoc]
  have hgained := gained_eq_of_append hwaiting
  refine ⟨hgained ▸ hwaiting, fun last => ?_, fun last => ?_⟩
  · rw [Trail.trans, toldOf_append, hs.told_eq, hs.lastLeaver_eq, hu.told_eq, hgained,
      List.map_append]
  · rw [Trail.trans, lastLeaver_append, hs.lastLeaver_eq, hu.lastLeaver_eq]

/-- A move that neither gives `o` anything nor touches its queue. -/
theorem one {m : Move} (hgiven : m.given? o = none) (hleaver : m.leaver? = none)
    (hwaiting : ((h.move m).connection o).queue.waiting = (h.connection o).queue.waiting) :
    (Trail.one m h).Still o := by
  have hgained : gained h (h.move m) o = [] :=
    gained_eq_nil_of_le (Nat.le_of_eq (congrArg List.length hwaiting))
  refine ⟨?_, fun last => ?_, fun last => ?_⟩
  · rw [hgained, hwaiting, List.append_nil]
  · simp only [Trail.one, toldOf, hgiven, hgained]
    rfl
  · simp only [Trail.one, lastLeaver, List.foldl_cons, List.foldl_nil, hleaver, Option.none_or]

theorem refl (h : Hub) : (Trail.refl h).Still o := by
  have hgained : gained h h o = [] := gained_eq_nil_of_le (Nat.le_refl _)
  exact ⟨by rw [hgained, List.append_nil], fun _ => by rw [hgained]; rfl, fun _ => rfl⟩

theorem note (counters : Counters) (pending : List Peer) (draining : Bool) (h : Hub) :
    (Trail.note counters pending draining h).Still o :=
  one rfl rfl rfl

theorem beginClose (p : Peer) (h : Hub) : (touch p .beginClose h).Still o :=
  one rfl rfl (waiting_update p o Connection.beginClose h fun c =>
    congrArg Queue.waiting (Connection.queue_beginClose c))

theorem put {p : Peer} {f : Frame} {q : Queue} (hp : h.Knows p) (ho : h.Knows o)
    (hsend : (h.connection p).queue.send f = .ok q) : (touch p (.put f) h).Still o := by
  by_cases heq : p = o
  · subst heq
    have hqueue : ((h.update p (Connection.put f)).connection p).queue = q := by
      rw [connection_update_self p _ h hp, Connection.put, hsend]
    have hwaiting : ((h.update p (Connection.put f)).connection p).queue.waiting =
        (h.connection p).queue.waiting ++ [f] := by
      rw [hqueue]
      rw [Queue.send] at hsend
      split at hsend
      next => cases hsend
      next =>
        split at hsend
        next => cases hsend
        next => cases hsend; rfl
    have hgained : gained h (h.update p (Connection.put f)) p = [f] :=
      gained_eq_of_append hwaiting
    refine ⟨hgained ▸ hwaiting, fun last => ?_, fun last => rfl⟩
    change toldOf p last [.touch p (.put f)] = (gained h (h.update p (Connection.put f)) p).map _
    rw [hgained]
    simp only [toldOf, Move.given?, if_true]
    rfl
  · refine one (if_neg heq) rfl (congrArg (fun c : Connection => c.queue.waiting) ?_)
    exact connection_update_of_ne p o _ h fun hhandle =>
      heq (ho.eq_of_handle hp hhandle).symm

theorem push {f : Frame} {ps : List Peer} (hps : ∀ p ∈ ps, h.Knows p) (ho : h.Knows o) :
    (Trail.push f ps h).Still o := by
  induction ps generalizing h with
  | nil => exact refl h
  | cons p ps ih =>
    have hknows {g : Connection → Connection} (hg : ∀ c, (g c).peer = c.peer) {q : Peer}
        (hq : h.Knows q) : (h.update p g).Knows q := (peer?_update p g h hg q.handle).trans hq
    have hp := hps p List.mem_cons_self
    have hrest : ∀ q ∈ ps, h.Knows q := fun q hq => hps q (List.mem_cons_of_mem p hq)
    rw [Trail.push]
    split
    · split
      next q hsend =>
        have hput : ∀ c, (Connection.put f c).peer = c.peer := by
          intro c
          rw [Connection.put]
          split <;> rfl
        exact ((put hp ho hsend).trans
          (ih (fun q hq => hknows hput (hrest q hq)) (hknows hput ho))).cast _
      next =>
        exact ((beginClose p h).trans (ih (fun q hq => hknows peer_beginClose (hrest q hq))
          (hknows peer_beginClose ho))).cast _
    · exact (ih hrest ho).cast _

theorem offer {f : Frame} {ps : List Peer} (hps : ∀ p ∈ ps, h.Knows p) (ho : h.Knows o) :
    (Trail.offer f ps h).Still o :=
  (push hps ho).trans (note _ _ _ _)

/-- Announcements put nobody into a room and leave the table as it is. -/
theorem announceAll (hw : h.WellFormed) (ho : h.Knows o) (user : UserId)
    (channels : List ChannelId) : (Trail.announceAll Trail.offer user channels h).Still o := by
  induction channels generalizing h with
  | nil => exact refl h
  | cons channel channels ih =>
    have hmembers (q : Peer) (hq : q ∈ h.rooms.members channel) : h.Knows q :=
      hw.known q (hw.mem_registered_of_mem_members hq)
    let after := (Hub.offer (leftFrame channel user) (h.rooms.members channel) h).1
    have hafter : after.WellFormed := hw.offer
    have hstep : (Trail.announceLeft Trail.offer user channel h).Still o :=
      (offer hmembers ho).trans (offer hafter.known ((offer_peer? ..).trans ho))
    exact hstep.trans (ih hafter.offer ((offer_peer? ..).trans ((offer_peer? ..).trans ho)))

end Still

section Evict

variable (hw : h.WellFormed) {d : Peer} (hd : h.Distinguishes d) (hmem : d ∈ h.registered)
  (ho : o ∈ h.registered) (hne : o ≠ d) (hopen : ((Hub.evict d h).connection o).isOpen = true)

include hw hd hmem ho hne

/-- All that is told while somebody is taken off the hub is of the one who goes. -/
theorem told_takeLeave (last : Option ConnectionId) :
    toldOf o last (takeLeave Trail.offer d h).moves =
      (gained h (Hub.evict d h) o).map fun f => (f, last) := by
  have hhandle : o.handle ≠ d.handle := fun heq =>
    hne ((hw.known o ho).eq_of_handle (hw.known d hmem) heq)
  have hclosed (g : Hub) : (touch d .markClosed g).Still o :=
    .one rfl rfl (waiting_update d o Connection.markClosed g fun _ => rfl)
  have hstill : (takeLeave Trail.offer d h).Still o :=
    (Still.announceAll (hw.detach hd) ((detach_peer? o.handle).trans (hw.known o ho)) d.user
      (h.rooms.leaveAll d.id).2).trans (hclosed _)
  have hgained : gained (h.detach d) (Hub.remove Hub.offer d h).1 o =
      gained h (Hub.evict d h) o := by
    have hcount : (Hub.evict d h).connection o = (Hub.remove Hub.offer d h).1.connection o := by
      simp only [Hub.evict]
      split
      · rfl
      · rfl
    rw [gained, gained, detach_connection_of_ne hhandle, hcount]
  rw [hstill.told_eq, hgained]

theorem told_evict (last : Option ConnectionId) :
    toldOf o last (Trail.evict d h).moves =
      (gained h (Hub.evict d h) o).map fun f => (f, some d.id) := by
  have hleave : toldOf o last (Trail.detach d h).moves = [] := rfl
  have hlast : lastLeaver last (Trail.detach d h).moves = some d.id := rfl
  have hremove : toldOf o last (Trail.remove Trail.offer d h).moves =
      (gained h (Hub.evict d h) o).map fun f => (f, some d.id) := by
    rw [Trail.remove, Trail.trans, toldOf_append, hleave, hlast, List.nil_append,
      told_takeLeave hw hd hmem ho hne]
  refine moves_branch (fun ms => toldOf o last ms = _) (fun _ => ?_) fun _ => hremove
  · change toldOf o last ((Trail.remove Trail.offer d h).moves ++ [_]) = _
    rw [toldOf_append, hremove]
    exact List.append_nil _

include hopen

theorem gained_evict : gained h (Hub.evict d h) o = h.farewells d o :=
  gained_of_offerAll ((evicted_evict hw hd hmem).survivor o ho hne) hopen

end Evict

theorem moves_evictPending_of_nil (hnil : h.pending = []) :
    (Trail.evictPending h).moves = [] := by
  rw [Trail.evictPending]
  split
  next => rfl
  next hcons => rw [hnil] at hcons; cases hcons

theorem moves_evictPending_of_cons {d : Peer} {rest : List Peer}
    (hcons : h.pending = d :: rest) :
    (Trail.evictPending h).moves = .note h.counters rest h.draining ::
      ((Trail.evict d { h with pending := rest }).moves ++
        (Trail.evictPending (Hub.evict d { h with pending := rest })).moves) := by
  rw [Trail.evictPending]
  split
  next hnil => rw [hnil] at hcons; cases hcons
  next hcons' => rw [hcons'] at hcons; cases hcons; rfl

theorem told_drain (hnot : h.draining = false) (last : Option ConnectionId) :
    toldOf o last (Trail.drain h).moves =
      toldOf o last (Trail.evictPending { h with draining := true }).moves := by
  refine moves_branch (fun ms => toldOf o last ms = _)
    (fun hyes => absurd hyes (Bool.eq_false_iff.mp hnot)) fun _ => ?_
  change toldOf o last
    (_ :: ((Trail.evictPending { h with draining := true }).moves ++ [.note _ _ false])) = _
  rw [toldOf, toldOf_append]
  exact List.append_nil _

end Trail

/-- With nobody left on the list, all who are registered are open. -/
theorem Listed.isOpen {h : Hub} (hl : h.Listed) (hpending : h.pending = []) {p : Peer}
    (hp : p ∈ h.registered) : (h.connection p).isOpen = true := by
  by_contra hclosed
  have hin := (hl.mem_iff p).mpr ⟨hp, Bool.eq_false_iff.mpr hclosed⟩
  rw [hpending] at hin
  exact List.not_mem_nil hin

/-- What `o` is told of those who have been removed, one after another. -/
def obituaries (h : Hub) (gone : List Peer) (o : Peer) : List (Frame × Option ConnectionId) :=
  gone.flatMap fun d => (h.farewells d o).map fun f => (f, some d.id)

section Deliver

variable {h h' : Hub} {f : Frame} {targets gone : List Peer}

/-- While the loop runs, whoever stays to the end is told of those who go, of each in its turn. -/
theorem Cascade.exists_told (hc : Cascade h f targets gone h') (hw : h.WellFormed)
    (hl : h'.Listed) :
    ∃ rest, Cascade h f targets (gone ++ rest) h'.evictPending ∧ h'.evictPending.pending = [] ∧
      h'.evictPending.Listed ∧ ∀ o ∈ h'.evictPending.registered, ∀ last,
        toldOf o last (Trail.evictPending h').moves = h.obituaries rest o := by
  induction h' using Hub.evictPending.induct generalizing gone with
  | case1 h' hnil =>
    rw [Trail.moves_evictPending_of_nil hnil, evictPending_of_nil hnil]
    exact ⟨[], by rwa [List.append_nil], hnil, hl, fun _ _ _ => rfl⟩
  | case2 h' d rest hcons ih =>
    have hw' := hc.wellFormed hw
    obtain ⟨hmem, hclosed⟩ := (hl.mem_iff d).mp (hcons ▸ List.mem_cons_self)
    have hd := hw'.distinguishes hmem
    let g : Hub := { h' with pending := rest }
    have hwg : g.WellFormed := ⟨hw'.known, hw'.ids_nodup, hw'.rooms, hw'.members⟩
    have he : Evicted d g (Hub.evict d g) := evicted_evict hwg hd hmem
    have hstep : Cascade h f targets (gone ++ [d]) (Hub.evict d g) :=
      hc.step hw hmem hclosed ⟨he.limits, he.registered, he.rooms, he.peer?, he.counters,
        he.removed, he.survivor, he.bystander⟩
    obtain ⟨later, hlater, hpending, hlisted, htold⟩ := ih hstep (hl.evict hw' hd hcons)
    rw [Trail.moves_evictPending_of_cons hcons, evictPending_of_cons hcons]
    refine ⟨d :: later, by rwa [List.append_assoc] at hlater, hpending, hlisted, ?_⟩
    intro o ho last
    have hgrows : Grows (fun _ _ => True) (Hub.evict d g) (Hub.evict d g).evictPending :=
      .evictPending (fun _ _ _ => trivial) _
    obtain ⟨ho', hne⟩ := hstep.mem_registered.mp (hgrows.registered.subset ho)
    rw [List.mem_append, List.mem_singleton, not_or] at hne
    have hreg : o ∈ g.registered := hc.mem_registered.mpr ⟨ho', hne.1⟩
    have hopen := (hgrows.connection o).isOpen (hlisted.isOpen hpending ho)
    have hgone : d ∉ gone := (hc.mem_registered.mp hmem).2
    have hfarewells : g.farewells d o = h.farewells d o := hc.farewells_eq hw hgone hne.1
    change toldOf o last ((Trail.evict d g).moves ++ (Trail.evictPending (Hub.evict d g)).moves) = _
    rw [toldOf_append, Trail.told_evict hwg hd hmem hreg hne.2, htold o ho,
      Trail.gained_evict hwg hd hmem hreg hne.2 hopen, hfarewells]
    rfl

/-- The frame itself, for one who is open when it has gone out. -/
theorem Quiescent.told_offer (hq : h.Quiescent) (htargets : h.Receivers targets) {o : Peer}
    (ho : h.Knows o) (hopen : ((offer f targets h).1.connection o).isOpen = true)
    (last : Option ConnectionId) :
    toldOf o last (Trail.offer f targets h).moves = if o ∈ targets then [(f, last)] else [] := by
  have hknown : ∀ q ∈ targets, h.Knows q := fun q hin => hq.known q (htargets.registered q hin)
  rw [(Trail.Still.offer hknown ho).told_eq,
    gained_of_offerAll (offer_connection f hknown htargets.nodup ho) hopen]
  split
  · rfl
  · rfl

/-- A delivery that fills nobody's queue is no more than the offer. -/
theorem deliver_of_spared (hdead : (push f targets h).dead = []) :
    (deliver f targets h).1 = (offer f targets h).1 ∧
      (Trail.deliver f targets h).moves = (Trail.offer f targets h).moves := by
  constructor
  · simp only [deliver, offer, hdead, List.isEmpty_nil, if_true]
  · refine Trail.moves_branch (· = _) (fun _ => rfl) fun hnot => absurd ?_ hnot
    rw [hdead, List.isEmpty_nil]

/-- A delivery that fills somebody's queue is the offer and the loop after it. -/
theorem deliver_of_dead (hdead : (push f targets h).dead ≠ []) :
    (deliver f targets h).1 = (offer f targets h).1.drain ∧
      (Trail.deliver f targets h).moves =
        (Trail.offer f targets h).moves ++ (Trail.drain (offer f targets h).1).moves := by
  constructor
  · simp only [deliver, List.isEmpty_eq_false_iff.mpr hdead, Bool.false_eq_true, if_false]
    rfl
  · refine Trail.moves_branch (· = _) (fun hyes => absurd ?_ hdead) fun _ => rfl
    exact List.isEmpty_iff.mp hyes

/-- A delivery from rest tells those who stay the frame, if it goes to them, and then of everybody
whom it has cost the place. -/
theorem exists_told_deliver (hq : h.Quiescent) (f : Frame) (htargets : h.Receivers targets) :
    ∃ gone, Delivered h f targets gone (deliver f targets h).1 ∧
      ∀ o ∈ (deliver f targets h).1.registered, ∀ last,
        toldOf o last (Trail.deliver f targets h).moves =
          (if o ∈ targets then [(f, last)] else []) ++ h.obituaries gone o := by
  have hstart := Cascade.start (f := f) hq htargets
  have hlisted := hq.listed.offer f hq.known htargets
  by_cases hdead : (push f targets h).dead = []
  · obtain ⟨hdeliver, hmoves⟩ := deliver_of_spared hdead
    have hpending : (offer f targets h).1.pending = [] := by
      simp only [offer, record, hdead, List.reverse_nil, List.nil_append, push_pending,
        hq.pending]
    rw [hmoves, hdeliver]
    refine ⟨[], ⟨hstart, hlisted, hpending, (offer_draining ..).trans hq.draining⟩, ?_⟩
    intro o ho last
    have hknows : h.Knows o := hq.known o (offer_registered f targets h ▸ ho)
    rw [hq.told_offer htargets hknows (hlisted.isOpen hpending ho)]
    exact (List.append_nil _).symm
  · let g : Hub := { (offer f targets h).1 with draining := true }
    have hnot : (offer f targets h).1.draining = false :=
      (offer_draining f targets h).trans hq.draining
    obtain ⟨hdrain, hmoves⟩ := deliver_of_dead hdead
    have hdeliver : (deliver f targets h).1 = { g.evictPending with draining := false } := by
      rw [hdrain, drain, if_neg (Bool.eq_false_iff.mp hnot)]
    have hl : g.Listed := ⟨hlisted.nodup, hlisted.mem_iff⟩
    obtain ⟨gone, hc, hpending, hend, htold⟩ :=
      (hstart.setDraining true).exists_told hq.toWellFormed hl
    rw [List.nil_append] at hc
    rw [hmoves, hdeliver]
    refine ⟨gone, ⟨hc.setDraining false, ⟨hend.nodup, hend.mem_iff⟩, hpending, rfl⟩, ?_⟩
    intro o ho last
    have hreg : o ∈ g.evictPending.registered := ho
    have hgrows : Grows (fun _ _ => True) g g.evictPending :=
      .evictPending (fun _ _ _ => trivial) _
    have hopen := (hgrows.connection o).isOpen (hend.isOpen hpending hreg)
    have hknows : h.Knows o :=
      hq.known o (offer_registered f targets h ▸ hgrows.registered.subset hreg)
    rw [toldOf_append, hq.told_offer htargets hknows hopen, Trail.told_drain hnot, htold o hreg]

end Deliver

end ChatHub.Hub
