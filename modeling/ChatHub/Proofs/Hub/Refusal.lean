import ChatHub.Proofs.Hub.Balance
import ChatHub.Proofs.Hub.Closing
import ChatHub.Proofs.Hub.Tidiness
/-!
What is refused, or has no point, leaves the hub as it is, in every component.  Most such requests
are turned away at the door; to take a connection down for the second time goes all the way through
and finds nothing left to do.
-/

namespace ChatHub.Hub

/-- After the history `ops` there is no point in the operation, which answers what is given. -/
inductive Futile (limits : Limits) (ops : List Operation) : Operation → Outcome → Prop
  /-- A text that is no command. -/
  | undecodable {i : Nat} {p : Peer} {text : String} {e : HubError}
      (hp : (run (new limits) ops).peer? i = some p) (hdecode : Command.decode text = .error e) :
      Futile limits ops (.handleText i text) (.failed e)
  /-- Any command of a connection that is being taken down. -/
  | ending {i : Nat} {p : Peer} (c : Command) (hp : (run (new limits) ops).peer? i = some p)
      (hstate : ((run (new limits) ops).connection p).state = .closing ∨
        ((run (new limits) ops).connection p).state = .closed) :
      Futile limits ops (.handle i c) .done
  | unknownTag {i : Nat} {p : Peer} (tag : String)
      (hp : (run (new limits) ops).peer? i = some p) :
      Futile limits ops (.handle i (.unknown tag)) .done
  /-- A report to a room that the sender is not in. -/
  | outsider {i : Nat} {p : Peer} {r : MediaReport} (hp : (run (new limits) ops).peer? i = some p)
      (houtside : p ∉ (run (new limits) ops).rooms.members r.channel) :
      Futile limits ops (.handle i (.mediaState r)) .done
  /-- A command that has no point has none as a text either. -/
  | inText {i : Nat} {text : String} {c : Command} (hdecode : Command.decode text = .ok c)
      (hc : Futile limits ops (.handle i c) .done) : Futile limits ops (.handleText i text) .done
  | full (user : UserId)
      (hfull : limits.maxConnections ≤ (run (new limits) ops).registered.length) :
      Futile limits ops (.connect user) (.failed (.connectionLimit limits.maxConnections))
  | notServerWide {e : Event} (hkind : e.kind.isServerWide = false) :
      Futile limits ops (.publishServerEvent e) (.failed (.notPublishable e.kind.tag))
  /-- A frame that the queue does not take. -/
  | unsent {i : Nat} {frame : String} {e : HubError}
      (hrefused : ((run (new limits) ops).perform (.send i frame)).2 = .failed e) :
      Futile limits ops (.send i frame) (.failed e)
  | shutOut {i : Nat} {p : Peer} (channel : ChannelId)
      (hp : (run (new limits) ops).peer? i = some p)
      (hclosed : ((run (new limits) ops).connection p).queue.closed = true) :
      Futile limits ops (.join i channel) (.users [])
  | absent {i : Nat} {p : Peer} {channel : ChannelId}
      (hp : (run (new limits) ops).peer? i = some p)
      (houtside : p ∉ (run (new limits) ops).rooms.members channel) :
      Futile limits ops (.leave i channel) (.flag false)
  /-- To take a connection down that has been taken down and not been registered since. -/
  | again {i : Nat} {p : Peer} {before mid : List Operation}
      (hops : ops = before ++ .unregister i :: mid)
      (hp : (run (new limits) before).peer? i = some p) (hmid : .register i ∉ mid) :
      Futile limits ops (.unregister i) (.flag false)

/-- No two connections that were ever made go by one name. -/
def NamesDiffer (h : Hub) : Prop := (h.table.map fun c => c.peer.id).Nodup

instance (h : Hub) : Decidable h.NamesDiffer :=
  inferInstanceAs (Decidable (h.table.map fun c => c.peer.id).Nodup)

section Names

variable {h : Hub} (hids : h.NamesDiffer) {p : Peer} (hp : h.Knows p)

include hids hp

theorem NamesDiffer.eq_of_id {q : Peer} (hq : h.Knows q) (hid : q.id = p.id) : q = p := by
  obtain ⟨c, hc, rfl⟩ := Option.map_eq_some_iff.mp hp
  obtain ⟨d, hd, rfl⟩ := Option.map_eq_some_iff.mp hq
  exact congrArg Connection.peer (List.inj_on_of_nodup_map hids (List.mem_of_getElem? hd)
    (List.mem_of_getElem? hc) hid)

variable (ht : h.Tidy)

include ht

/-- A room has the name of a connection only if the connection is in it. -/
theorem Tidy.contains_eq_false {channel : ChannelId}
    (houtside : p ∉ h.rooms.members channel) : h.rooms.contains channel p.id = false := by
  rw [Bool.eq_false_iff, Ne, Rooms.contains_iff_exists]
  rintro ⟨m, hm, hid⟩
  exact houtside (hids.eq_of_id hp (ht.members_known channel m hm) hid ▸ hm)

theorem Tidy.isRegistered_eq_false (hout : p ∉ h.registered) : h.isRegistered p = false := by
  rw [isRegistered_eq_false_iff]
  exact fun q hq hid => hout (hids.eq_of_id hp (ht.known q hq) hid ▸ hq)

end Names

section Unregister

variable {h : Hub} {p : Peer}

/-- A connection of which nothing is left but its entry in the table. -/
structure Spent (h : Hub) (p : Peer) : Prop where
  state : (h.connection p).state = .closed
  queue_closed : (h.connection p).queue.closed = true
  unregistered : h.isRegistered p = false
  outside : ∀ channel, h.rooms.contains channel p.id = false

theorem Spent.detach_eq (hs : h.Spent p) (hrooms : h.rooms.Valid) : h.detach p = h := by
  have hconnection : (h.connection p).beginClose.closeQueue = h.connection p := by
    have hnot : (h.connection p).isOpen = false := by
      simp only [Connection.isOpen, hs.state]
      rfl
    have hqueue : (h.connection p).queue.close = (h.connection p).queue := by
      simp only [Queue.close, ← hs.queue_closed]
    simp only [Connection.beginClose, hnot, Bool.false_eq_true, if_false, Connection.closeQueue,
      hqueue]
  have hregistered : erasePeer p.id h.registered = h.registered := by
    rw [erasePeer, List.filter_eq_self]
    exact fun q hq => bne_iff_ne.mpr (isRegistered_eq_false_iff.mp hs.unregistered q hq)
  have hleft : (h.rooms.leaveAll p.id).1 = h.rooms := by
    rw [Rooms.leaveAll_rooms]
    refine Rooms.restrict_eq_self hrooms.inhabited fun r hr q hq => ?_
    rw [bne_iff_ne]
    intro hid
    have hin : h.rooms.contains r.channel p.id = true := by
      rw [Rooms.contains_iff_exists, Rooms.members_of_mem hrooms.channels_nodup hr]
      exact ⟨q, hq, hid⟩
    exact Bool.false_ne_true ((hs.outside r.channel).symm.trans hin)
  rw [detach, update_eq_self hconnection, hregistered, hleft]

theorem Spent.unregister_eq (hs : h.Spent p) (hrooms : h.rooms.Valid) :
    h.unregister p = (h, false) := by
  have hnone : (h.rooms.leaveAll p.id).2 = [] := by
    rw [List.eq_nil_iff_forall_not_mem]
    intro channel hin
    have hcontains := Rooms.contains_of_mem_leaveAll hrooms hin
    exact Bool.false_ne_true ((hs.outside channel).symm.trans hcontains)
  have hmarked : h.update p Connection.markClosed = h :=
    update_eq_self (by simp only [Connection.markClosed, ← hs.state])
  rw [unregister, remove_eq, hs.unregistered, hnone, hs.detach_eq hrooms, List.foldl_nil, hmarked]

/-- Nobody gets into the set again without being registered. -/
theorem Tidy.not_mem_registered_run (ht : h.Tidy) (hp : h.Knows p) (hout : p ∉ h.registered)
    {ops : List Operation} (hops : .register p.handle ∉ ops) : p ∉ (h.run ops).registered := by
  induction ops generalizing h with
  | nil => exact hout
  | cons op ops ih =>
    have hstep := ht.perform op
    have hknows : (h.perform op).1.Knows p := (Trail.perform h op).peer?_of_some hp
    refine ih hstep.tidy hknows ?_ fun hin => hops (List.mem_cons_of_mem op hin)
    intro hmem
    rcases hstep.registered p hmem with hold | hnew | heq
    · exact hout hold
    · exact hnew hp
    · exact hops (heq ▸ List.mem_cons_self)

/-- Whoever has been taken down is out of the set, and at the end of its life. -/
theorem unregister_ends (hp : h.Knows p) :
    p ∉ (h.unregister p).1.registered ∧
      ∃ c, (h.unregister p).1.table[p.handle]? = some c ∧ c.peer = p ∧ c.state = .closed := by
  let left := (h.rooms.leaveAll p.id).2.foldl
    (fun h channel => announceLeft deliver p.user channel h) (h.detach p)
  have hleft : Grows (fun _ _ => True) (h.detach p) left :=
    .announceAll (fun _ _ _ => trivial)
      (fun _ _ h _ => .deliver (fun _ _ _ => trivial) h fun _ _ => trivial) _ _ _
  have heq : (h.unregister p).1 = left.update p Connection.markClosed := rfl
  rw [heq]
  constructor
  · intro hmem
    have hkept := hleft.registered.subset hmem
    exact bne_iff_ne.mp (List.mem_filter.mp hkept).2 rfl
  · have hknows : left.Knows p := (hleft.peer? p.handle).trans ((detach_peer? p.handle).trans hp)
    have hlater : (left.update p Connection.markClosed).Knows p :=
      (peer?_update p Connection.markClosed left (fun _ => rfl) p.handle).trans hknows
    have hclosed := connection_update_self p Connection.markClosed left hknows
    obtain ⟨c, hc, hpeer⟩ := Option.map_eq_some_iff.mp hlater
    rw [connection, hc, Option.getD_some] at hclosed
    exact ⟨c, hc, hpeer, hclosed ▸ rfl⟩

theorem state_closed_of_rank_le {s : Lifecycle} (hle : Lifecycle.closed.rank ≤ s.rank) :
    s = .closed := by
  cases s <;> first | rfl | exact absurd hle (by decide)

/-- Once taken down a connection is spent for as long as it is not registered. -/
theorem Tidy.spent (ht : h.Tidy) (hp : h.Knows p) {mid : List Operation}
    (hmid : .register p.handle ∉ mid)
    (hids : ((h.perform (.unregister p.handle)).1.run mid).NamesDiffer) :
    ((h.perform (.unregister p.handle)).1.run mid).Spent p := by
  have hperform : (h.perform (.unregister p.handle)).1 = (h.unregister p).1 := by
    rw [perform_unregister hp]
  have hfirst := (ht.perform (.unregister p.handle)).tidy
  have hbarred : (h.perform (.unregister p.handle)).1.Barred p := by
    rw [hperform]
    exact (Trail.takeLeave Trail.deliver p h).barred (barred_detach hp)
  have hlater := (Trail.run _ mid).barred hbarred
  rw [hperform] at hfirst hids hlater ⊢
  obtain ⟨hout, c, hc, hpeer, hstate⟩ := unregister_ends hp
  have hknows : (h.unregister p).1.Knows p := by
    rw [Knows, peer?_of_getElem? hc, hpeer]
  have hknows' : ((h.unregister p).1.run mid).Knows p :=
    (Trail.run _ mid).peer?_of_some hknows
  obtain ⟨c', hc', hage⟩ := (Trail.run _ mid).ages hc
  obtain ⟨d, hd, hqueue⟩ := hlater.closed
  have hconnection : ((h.unregister p).1.run mid).connection p = c' := by
    rw [connection, hc', Option.getD_some]
  obtain rfl := Option.some.inj (hc'.symm.trans hd)
  have htidy := hfirst.run mid
  constructor
  case state =>
    rw [hconnection]
    exact state_closed_of_rank_le (hstate ▸ hage.rank_le)
  case queue_closed => rw [hconnection, hqueue]
  case unregistered =>
    exact Tidy.isRegistered_eq_false hids hknows' htidy
      (hfirst.not_mem_registered_run hknows hout hmid)
  case outside =>
    exact fun channel =>
      Tidy.contains_eq_false hids hknows' htidy (hlater.not_mem_members channel)

/-- To take it down once more is to no effect. -/
theorem Tidy.perform_unregister_again (ht : h.Tidy) (hp : h.Knows p) {mid : List Operation}
    (hmid : .register p.handle ∉ mid)
    (hids : (h.run (.unregister p.handle :: mid)).NamesDiffer) :
    (h.run (.unregister p.handle :: mid)).perform (.unregister p.handle) =
      (h.run (.unregister p.handle :: mid), .flag false) := by
  have hspent : (h.run (.unregister p.handle :: mid)).Spent p := ht.spent hp hmid hids
  have hpeer : (h.run (.unregister p.handle :: mid)).peer? p.handle = some p :=
    (Trail.run h _).peer?_of_some hp
  have hidle := hspent.unregister_eq (ht.run (.unregister p.handle :: mid)).rooms
  simp only [Hub.perform, withPeer, hpeer, hidle]
  rfl

end Unregister

/-- Whatever has happened before, as long as no two connections go by one name: what fails, and what
has no point, leaves the hub exactly as it was.  That is so for a text that is no command, a command
that comes too late, is unknown or reports to a room that the sender is not in, a connection too
many, an event that is not for everyone, a frame that the queue does not take, a join with a closed
queue, a leave without having joined, and for taking down what has been taken down. -/
theorem futile_changes_nothing (limits : Limits) {ops : List Operation}
    (hids : (run (new limits) ops).NamesDiffer) {op : Operation} {out : Outcome}
    (hop : Futile limits ops op out) :
    (run (new limits) ops).perform op = (run (new limits) ops, out) := by
  have ht : (run (new limits) ops).Tidy := (tidy_new limits).run ops
  have hlimits : (run (new limits) ops).limits = limits :=
    (Trail.run (new limits) ops).limits_eq
  induction hop with
  | undecodable hp hdecode => exact perform_handleText_of_error hp hdecode
  | @ending i p c hp hstate =>
    have hnot : ((run (new limits) ops).connection p).isOpen = false := by
      rcases hstate with hclosing | hclosed
      · rw [Connection.isOpen, hclosing]
        rfl
      · rw [Connection.isOpen, hclosed]
        rfl
    rw [perform_handle hp]
    simp only [handle, hnot, Bool.false_eq_true, if_false]
  | unknownTag tag hp =>
    rw [perform_handle hp]
    simp only [handle, ite_self]
  | outsider hp houtside =>
    have hnot := Tidy.contains_eq_false hids (ht.knows_of_peer? hp) ht houtside
    rw [perform_handle hp]
    simp only [handle, reportMedia, hnot, Bool.false_eq_true, if_false, ite_self]
  | inText hdecode _ ih => exact (perform_handleText_of_ok hdecode).trans ih
  | full user hfull => simp only [perform, connect, hlimits, hfull, if_true]
  | notServerWide hkind =>
    simp only [perform, publishServerEvent, hkind, Bool.false_eq_true, if_false]
  | unsent hrefused =>
    simp only [perform, withPeer] at hrefused ⊢
    split at hrefused
    next =>
      split at hrefused
      next => cases hrefused
      next => exact Prod.ext rfl hrefused
    next => cases hrefused
  | shutOut channel hp hclosed =>
    simp only [perform, withPeer, hp, joinRoom, Rooms.join, hclosed, if_true]
  | absent hp houtside =>
    have hnot := Tidy.contains_eq_false hids (ht.knows_of_peer? hp) ht houtside
    simp only [perform, withPeer, hp, leaveRoom, Rooms.leave, hnot, Bool.false_eq_true, if_false]
    rfl
  | @again i p before mid hops hp hmid =>
    subst hops
    have hknows : (run (new limits) before).Knows p :=
      ((tidy_new limits).run before).knows_of_peer? hp
    have hi : p.handle = i := ((tidy_new limits).run before).numbered i p hp
    subst hi
    rw [run_append] at hids ⊢
    exact ((tidy_new limits).run before).perform_unregister_again hknows hmid hids

/-- Ann is taken down, and Bob comes into the hall.  Taking her down once more changes nothing. -/
theorem ann_goes_once :
    let ops : List Operation := [.connect "ann", .join 0 "hall", .unregister 0, .connect "bob",
      .join 1 "hall"]
    (run (new .standard) ops).perform (.unregister 0) =
      (run (new .standard) ops, .flag false) := by
  intro ops
  have hops : ops = [.connect "ann", .join 0 "hall"] ++
      .unregister 0 :: [.connect "bob", .join 1 "hall"] := rfl
  have hids : (run (new .standard) ops).NamesDiffer := by decide +kernel
  have hann : (run (new .standard) [.connect "ann", .join 0 "hall"]).peer? 0 =
      some ⟨0, .fresh 0, "ann"⟩ := by decide +kernel
  exact futile_changes_nothing .standard hids (.again hops hann (by decide))

end ChatHub.Hub
