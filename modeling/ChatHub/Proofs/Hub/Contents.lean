import ChatHub.Proofs.Hub.Closing
import ChatHub.Proofs.Hub.Lockstep
import ChatHub.Proofs.Hub.Tidiness
/-!
What the contents of a message have an influence on.  A text makes no other difference than to stand
where another text would stand, in the queues of those who look at its channel, and the channel
without a name has nobody who looks at it.
-/

namespace ChatHub.Hub

section Views

/-- Nobody is looking at the channel without a name. -/
def ViewsNamed (h : Hub) : Prop :=
  ∀ (i : Nat) (c : Connection), h.table[i]? = some c → c.viewed ≠ some ""

theorem viewed_view_ne (channel : Option ChannelId) (c : Connection) :
    (c.view channel).viewed ≠ some "" := by
  intro hviewed
  have hkept := (Option.filter_eq_some_iff.mp hviewed).2
  exact absurd hkept (by decide)

theorem Touch.viewed_apply (t : Touch) {c : Connection} (hc : c.viewed ≠ some "") :
    (t.apply c).viewed ≠ some "" := by
  cases t with
  | view channel => exact viewed_view_ne channel c
  | activate =>
    simp only [Touch.apply, Connection.activate]
    split
    · exact hc
    · exact hc
  | beginClose =>
    simp only [Touch.apply, Connection.beginClose]
    split
    · exact hc
    · exact hc
  | put f =>
    simp only [Touch.apply, Connection.put]
    split
    · exact hc
    · exact hc
  | pull =>
    simp only [Touch.apply, Connection.pull]
    split
    · exact hc
    · exact hc
  | closeQueue | markClosed | abandon => exact hc

theorem viewsNamed_run (limits : Limits) (ops : List Operation) :
    (run (new limits) ops).ViewsNamed := by
  have hstart : (new limits).ViewsNamed := by
    intro i c hc
    simp [new] at hc
  have hnew (p : Peer) (capacity : Nat) : (Connection.new p capacity).viewed ≠ some "" :=
    (Option.some_ne_none "").symm
  exact (Trail.run (new limits) ops).moved_eq ▸
    forall_moved (fun t _ => t.viewed_apply) hnew hstart _

end Views

/-- A way in which a text gets to those who look at a channel. -/
inductive Feed where
  /-- A new message, of which everyone gets the digest. -/
  | message (digest : Event.Activity)
  | edit (channel : ChannelId)
  | reactions (channel : ChannelId)

namespace Feed

def channel : Feed → ChannelId
  | message digest => digest.channel
  | edit channel => channel
  | reactions channel => channel

def kind : Feed → Event.Kind
  | message _ => .messageNew
  | edit _ => .messageEdit
  | reactions _ => .reactionUpdate

/-- What carries the text. -/
def frame (feed : Feed) (text : Json.Raw) : Frame := .event ⟨feed.kind, .raw text⟩

def operation : Feed → Json.Raw → Operation
  | message digest, text => .publishMessage text digest
  | edit channel, text => .publishEdit channel text
  | reactions channel, text => .publishReactions channel text

/-- Those who look at the channel. -/
def viewers (feed : Feed) (h : Hub) : List Peer :=
  h.registered.filter fun p => (h.connection p).isViewing feed.channel

/-- The hub when the text has been sent; only of a message there is more to come. -/
def sent (feed : Feed) (text : Json.Raw) (h : Hub) : Hub × Nat :=
  deliver (feed.frame text) (feed.viewers h) h

variable (feed : Feed) (text : Json.Raw) (h : Hub)

theorem frame_ne_leftFrame (channel : ChannelId) (user : UserId) :
    feed.frame text ≠ leftFrame channel user := by
  cases feed <;> simp [frame, kind, leftFrame, Event.left]

theorem mem_viewers {feed : Feed} {h : Hub} {x : Peer} :
    x ∈ feed.viewers h ↔ x ∈ h.registered ∧ (h.connection x).viewed = some feed.channel := by
  simp only [viewers, List.mem_filter, Connection.isViewing, beq_iff_eq]

theorem viewers_eq_nil {feed : Feed} {h : Hub} (hk : h.Keyed) (hv : h.ViewsNamed)
    (hempty : feed.channel = "") : feed.viewers h = [] := by
  rw [List.eq_nil_iff_forall_not_mem]
  intro x hx
  obtain ⟨hregistered, hviewed⟩ := mem_viewers.mp hx
  obtain ⟨c, hc, _⟩ := Option.map_eq_some_iff.mp (hk.known x hregistered)
  rw [connection, hc, Option.getD_some, hempty] at hviewed
  exact hv x.handle c hc hviewed

/-- What is still to come is the digest, and does not depend on the text. -/
theorem perform_eq : h.perform (feed.operation text) =
    match feed with
    | message digest =>
        (((feed.sent text h).1.broadcast ⟨.messageActivity, .activity digest⟩).1, .done)
    | _ => ((feed.sent text h).1, .delivered (feed.sent text h).2) := by
  cases feed with
  | message digest => rfl
  | edit channel => rfl
  | reactions channel => rfl

end Feed

/-- One frame in the place of another. -/
def exchange (f f' g : Frame) : Frame := if g = f then f' else g

theorem exchange_of_ne {f f' g : Frame} (hne : g ≠ f) : exchange f f' g = g := if_neg hne

theorem exchange_self (f f' : Frame) : exchange f f' f = f' := if_pos rfl

section Publish

variable {h : Hub} (hk : h.Keyed) (feed : Feed) (text : Json.Raw)

/-- Two texts that take the same way make the same of the hub and get the same answer. -/
theorem lockstep_perform (text' : Json.Raw) :
    Lockstep (exchange (feed.frame text) (feed.frame text')) h
        (h.perform (feed.operation text)).1 (h.perform (feed.operation text')).1 ∧
      (h.perform (feed.operation text')).2 = (h.perform (feed.operation text)).2 := by
  have hleft (channel : ChannelId) (user : UserId) :
      exchange (feed.frame text) (feed.frame text') (leftFrame channel user) =
        leftFrame channel user :=
    exchange_of_ne (feed.frame_ne_leftFrame text channel user).symm
  have hsame := Lockstep.refl (exchange (feed.frame text) (feed.frame text')) h
  obtain ⟨hsent, hcount⟩ := hsame.deliver hleft (feed.frame text) (feed.viewers h)
  rw [exchange_self] at hsent hcount
  rw [feed.perform_eq text, feed.perform_eq text']
  cases feed with
  | message digest =>
    refine ⟨?_, rfl⟩
    have hdigest := (hsent.deliver hleft (.event ⟨.messageActivity, .activity digest⟩)
      ((Feed.message digest).sent text h).1.registered).1
    rw [exchange_of_ne (by simp [Feed.frame, Feed.kind])] at hdigest
    simp only [broadcast]
    rw [Feed.sent, Feed.sent, hsent.registered_eq]
    exact hdigest
  | edit channel => exact ⟨hsent, congrArg Outcome.delivered hcount⟩
  | reactions channel => exact ⟨hsent, congrArg Outcome.delivered hcount⟩

include hk

/-- The text gets into the queue of each viewer that takes it, once, and nowhere else. -/
theorem Keyed.count_gained_perform {x : Peer} (hx : h.Knows x) :
    (gained h (h.perform (feed.operation text)).1 x).count (feed.frame text) =
      if x ∈ h.registered ∧ (h.connection x).viewed = some feed.channel ∧
        (h.connection x).isOpen = true ∧ 0 < (h.connection x).queue.free then 1 else 0 := by
  have hknown : ∀ p ∈ feed.viewers h, h.Knows p :=
    fun p hp => hk.known p (List.mem_filter.mp hp).1
  have hsent : (gained h (feed.sent text h).1 x).count (feed.frame text) =
      if x ∈ h.registered ∧ (h.connection x).viewed = some feed.channel ∧
        (h.connection x).isOpen = true ∧ 0 < (h.connection x).queue.free then 1 else 0 := by
    obtain ⟨news, hnews, hall⟩ := exists_gained_deliver (feed.frame text) hknown
      (hk.registered_nodup.filter _) hx
    have hnone : news.count (feed.frame text) = 0 := by
      rw [List.count_eq_zero]
      intro hin
      obtain ⟨channel, user, heq⟩ := hall _ hin
      exact feed.frame_ne_leftFrame text channel user heq
    rw [Feed.sent, hnews, List.count_append, hnone]
    simp only [Feed.mem_viewers, and_assoc]
    split
    · simp
    · simp
  rw [feed.perform_eq text]
  cases feed with
  | message digest =>
    let other (_ : Nat) (g : Frame) : Prop := g ≠ (Feed.message digest).frame text
    have hother (channel : ChannelId) (user : UserId) :
        leftFrame channel user ≠ (Feed.message digest).frame text :=
      ((Feed.message digest).frame_ne_leftFrame text channel user).symm
    have hfirst : Grows (fun _ _ => True) h ((Feed.message digest).sent text h).1 :=
      .deliver (fun _ _ _ => trivial) h fun _ _ => trivial
    have hrest : Grows other ((Feed.message digest).sent text h).1
        (((Feed.message digest).sent text h).1.broadcast
          ⟨.messageActivity, .activity digest⟩).1 :=
      .broadcast (fun _ channel user => hother channel user) _
        fun _ _ => by simp [other, Feed.frame, Feed.kind]
    have hnone : (gained ((Feed.message digest).sent text h).1
        (((Feed.message digest).sent text h).1.broadcast
          ⟨.messageActivity, .activity digest⟩).1 x).count
            ((Feed.message digest).frame text) = 0 := by
      rw [List.count_eq_zero]
      exact fun hin => hrest.of_mem_gained hin rfl
    simp only
    rw [gained_trans hfirst hrest, List.count_append, hsent, hnone]
    rfl
  | edit channel => exact hsent
  | reactions channel => exact hsent

end Publish

/-- Whatever has happened before: two texts that are published in one way, be it as a new message
with one digest, as an edit or as reactions, lead to the same answer and to the same hub, but that
the one text stands where the other would.  It stands in the queues of those who were registered and
looked at the channel, and had room for it, once in each.  Nobody ever looks at the channel without
a name, and what is published there reaches nobody. -/
theorem contents_stay_with_viewers (limits : Limits) (ops : List Operation) (feed : Feed)
    (text text' : Json.Raw) :
    let h := run (new limits) ops
    let r := h.perform (feed.operation text)
    let r' := h.perform (feed.operation text')
    Lockstep (exchange (feed.frame text) (feed.frame text')) h r.1 r'.1 ∧ r'.2 = r.2 ∧
      (∀ x, h.Knows x → (gained h r.1 x).count (feed.frame text) =
        if x ∈ h.registered ∧ (h.connection x).viewed = some feed.channel ∧
          (h.connection x).isOpen = true ∧ 0 < (h.connection x).queue.free then 1 else 0) ∧
      (∀ c ∈ h.table, c.viewed ≠ some "") ∧
      (feed.channel = "" → (∀ x, h.Knows x → feed.frame text ∉ gained h r.1 x) ∧
        ∀ n, r.2 = .delivered n → n = 0) := by
  intro h r r'
  have hk : h.Keyed := ((tidy_new limits).run ops).toKeyed
  have hv : h.ViewsNamed := viewsNamed_run limits ops
  obtain ⟨hlockstep, hanswer⟩ := lockstep_perform feed text text'
  refine ⟨hlockstep, hanswer, fun x hx => hk.count_gained_perform feed text hx, ?_, ?_⟩
  · intro c hc
    obtain ⟨i, hi⟩ := List.getElem?_of_mem hc
    exact hv i c hi
  · intro hempty
    have hnobody := Feed.viewers_eq_nil hk hv hempty
    constructor
    · intro x hx hin
      have hcount := hk.count_gained_perform feed text hx
      rw [if_neg] at hcount
      · exact List.count_eq_zero.mp hcount hin
      · rintro ⟨hregistered, hviewed, _⟩
        have hviewer := Feed.mem_viewers.mpr ⟨hregistered, hviewed⟩
        rw [hnobody] at hviewer
        exact List.not_mem_nil hviewer
    · intro n hn
      have hr : r.2 = _ := congrArg Prod.snd (feed.perform_eq text h)
      rw [hn] at hr
      have hzero : (feed.sent text h).2 = 0 := by
        rw [Feed.sent, hnobody]
        rfl
      cases feed with
      | message digest => cases hr
      | edit channel => exact (Outcome.delivered.inj hr).trans hzero
      | reactions channel => exact (Outcome.delivered.inj hr).trans hzero

/-- Ann looks at the channel, and Bob does not: she gets the text, and he does not. -/
theorem ann_alone_reads :
    let h := run (new .standard) [.connect "ann", .connect "bob", .view 0 (some "general")]
    let feed := Feed.message ⟨"general", "General", "eve", "Eve", "hi", "m1"⟩
    let r := h.perform (feed.operation ⟨['1']⟩)
    (gained h r.1 ⟨0, .fresh 0, "ann"⟩).count (feed.frame ⟨['1']⟩) = 1 ∧
      (gained h r.1 ⟨1, .fresh 1, "bob"⟩).count (feed.frame ⟨['1']⟩) = 0 := by
  intro h feed r
  have hann : h.Knows ⟨0, .fresh 0, "ann"⟩ := by decide +kernel
  have hbob : h.Knows ⟨1, .fresh 1, "bob"⟩ := by decide +kernel
  obtain ⟨_, _, hcount, _⟩ := contents_stay_with_viewers .standard
    [.connect "ann", .connect "bob", .view 0 (some "general")] feed ⟨['1']⟩ ⟨['2']⟩
  exact ⟨(hcount _ hann).trans (by decide +kernel), (hcount _ hbob).trans (by decide +kernel)⟩

end ChatHub.Hub
