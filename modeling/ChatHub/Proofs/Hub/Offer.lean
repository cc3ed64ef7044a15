import ChatHub.Hub.Delivery
import Mathlib.Tactic.Common
/-!
What becomes of a connection that is offered frames one after another.  It takes them as long as
its queue has room; the first one that it refuses starts its removal, and it takes none after that.
-/

namespace ChatHub

namespace Queue

theorem send_of_free_pos {q : Queue} (f : Frame) (hfree : 0 < q.free) :
    q.send f = .ok { q with waiting := q.waiting ++ [f] } := by
  by_cases hgone : (q.closed || q.abandoned) = true
  · simp [free, hgone] at hfree
  · have hroom : ¬ q.capacity ≤ q.waiting.length := by
      simp only [free, hgone] at hfree
      simp at hfree
      omega
    simp only [send, hgone, hroom, if_false, Bool.false_eq_true]

theorem send_of_free_eq_zero {q : Queue} (f : Frame) (hfree : q.free = 0) :
    ∃ e, q.send f = .error e := by
  by_cases hgone : (q.closed || q.abandoned) = true
  · exact ⟨.channelClosed, by simp only [send, hgone, if_true]⟩
  · have hroom : q.capacity ≤ q.waiting.length := by
      simp only [free, hgone] at hfree
      simp at hfree
      omega
    refine ⟨.queueFull, ?_⟩
    simp only [send, hgone, hroom, if_false, if_true, Bool.false_eq_true]

theorem eq_cons_of_take {q rest : Queue} {f : Frame} (htake : q.take = .frame f rest) :
    q.waiting = f :: rest.waiting ∧ rest = { q with waiting := rest.waiting } := by
  rw [take] at htake
  split at htake
  next hwaiting =>
    cases htake
    exact ⟨hwaiting, rfl⟩
  next =>
    split at htake
    next => cases htake
    next => cases htake

end Queue

namespace Connection

open Hub (isOpen_beginClose)

/-- Offers a frame to a connection.  One that is being taken down is passed over; one that
refuses begins to close. -/
def offer (f : Frame) (c : Connection) : Connection :=
  if c.isOpen then
    match c.queue.send f with
    | .ok q => { c with queue := q }
    | .error _ => c.beginClose
  else c

/-- Offers frames in their order. -/
def offerAll (fs : List Frame) (c : Connection) : Connection :=
  fs.foldl (fun c f => c.offer f) c

/-- A connection with more frames in its queue. -/
def taking (fs : List Frame) (c : Connection) : Connection :=
  { c with queue := { c.queue with waiting := c.queue.waiting ++ fs } }

@[simp]
theorem isOpen_taking (fs : List Frame) (c : Connection) : (c.taking fs).isOpen = c.isOpen := rfl

theorem taking_nil (c : Connection) : c.taking [] = c := by
  simp only [taking, List.append_nil]

theorem taking_taking (fs gs : List Frame) (c : Connection) :
    (c.taking fs).taking gs = c.taking (fs ++ gs) := by
  simp only [taking, List.append_assoc]

/-- A frame more leaves one place less. -/
theorem free_taking (fs : List Frame) (c : Connection) :
    (c.taking fs).queue.free = c.queue.free - fs.length := by
  simp only [taking, Queue.free, List.length_append]
  split
  · exact (Nat.zero_sub _).symm
  · omega

@[simp]
theorem offerAll_nil (c : Connection) : c.offerAll [] = c := rfl

@[simp]
theorem offerAll_cons (f : Frame) (fs : List Frame) (c : Connection) :
    c.offerAll (f :: fs) = (c.offer f).offerAll fs := rfl

theorem offerAll_append (fs gs : List Frame) (c : Connection) :
    c.offerAll (fs ++ gs) = (c.offerAll fs).offerAll gs := by
  simp only [offerAll, List.foldl_append]

theorem offer_of_not_open {c : Connection} (f : Frame) (hc : c.isOpen = false) :
    c.offer f = c := by
  simp only [offer, hc, Bool.false_eq_true, if_false]

theorem offerAll_of_not_open {c : Connection} (fs : List Frame) (hc : c.isOpen = false) :
    c.offerAll fs = c := by
  induction fs with
  | nil => rfl
  | cons f fs ih => rw [offerAll_cons, offer_of_not_open f hc, ih]

theorem offer_of_free_pos {c : Connection} (f : Frame) (hc : c.isOpen = true)
    (hfree : 0 < c.queue.free) : c.offer f = c.taking [f] := by
  simp only [offer, hc, if_true, Queue.send_of_free_pos f hfree, taking]

theorem offer_of_free_eq_zero {c : Connection} (f : Frame) (hc : c.isOpen = true)
    (hfree : c.queue.free = 0) : c.offer f = c.beginClose := by
  obtain ⟨e, he⟩ := Queue.send_of_free_eq_zero f hfree
  simp only [offer, hc, if_true, he]

/-- What is offered closes a connection that has no room for it. -/
theorem isOpen_offer (f : Frame) (c : Connection) :
    (c.offer f).isOpen = (c.isOpen && decide (0 < c.queue.free)) := by
  cases hopen : c.isOpen with
  | false => rw [offer_of_not_open f hopen, hopen, Bool.false_and]
  | true =>
    by_cases hfree : 0 < c.queue.free
    · rw [offer_of_free_pos f hopen hfree, isOpen_taking, hopen, decide_eq_true hfree,
        Bool.and_self]
    · rw [offer_of_free_eq_zero f hopen (Nat.eq_zero_of_not_pos hfree), isOpen_beginClose,
        decide_eq_false hfree, Bool.and_false]

theorem queue_beginClose (c : Connection) : c.beginClose.queue = c.queue := by
  rw [beginClose]
  split
  · rfl
  · rfl

/-- A frame goes into the queue of an open connection that has room for it, and nowhere else. -/
theorem waiting_offer (f : Frame) (c : Connection) : (c.offer f).queue.waiting =
    c.queue.waiting ++ if c.isOpen = true ∧ 0 < c.queue.free then [f] else [] := by
  cases hopen : c.isOpen with
  | false =>
    rw [offer_of_not_open f hopen]
    simp
  | true =>
    by_cases hfree : 0 < c.queue.free
    · rw [offer_of_free_pos f hopen hfree]
      simp [hfree, taking]
    · rw [offer_of_free_eq_zero f hopen (Nat.eq_zero_of_not_pos hfree), queue_beginClose]
      simp [hfree]

/-- Frames for which there is room are taken, all of them and in their order. -/
theorem offerAll_of_le_free {c : Connection} {fs : List Frame} (hc : c.isOpen = true)
    (hfree : fs.length ≤ c.queue.free) : c.offerAll fs = c.taking fs := by
  induction fs generalizing c with
  | nil => rw [offerAll_nil, taking_nil]
  | cons f fs ih =>
    simp only [List.length_cons] at hfree
    have hopen : (c.taking [f]).isOpen = true := hc
    have hroom : fs.length ≤ (c.taking [f]).queue.free := by
      rw [free_taking, List.length_singleton]
      omega
    rw [offerAll_cons, offer_of_free_pos f hc (by omega), ih hopen hroom,
      taking_taking, List.singleton_append]

/-- Of more frames than there is room for, the first ones are taken and the next one closes the
connection. -/
theorem offerAll_of_free_lt {c : Connection} {fs : List Frame} (hc : c.isOpen = true)
    (hfree : c.queue.free < fs.length) :
    c.offerAll fs = (c.taking (fs.take c.queue.free)).beginClose := by
  induction fs generalizing c with
  | nil => simp at hfree
  | cons f fs ih =>
    simp only [List.length_cons] at hfree
    by_cases hfull : c.queue.free = 0
    · rw [offerAll_cons, offer_of_free_eq_zero f hc hfull,
        offerAll_of_not_open fs (isOpen_beginClose c), hfull, List.take_zero, taking_nil]
    · obtain ⟨n, hn⟩ := Nat.exists_eq_succ_of_ne_zero hfull
      have hopen : (c.taking [f]).isOpen = true := hc
      have hroom : (c.taking [f]).queue.free = n := by
        rw [free_taking, List.length_singleton, hn]
        omega
      rw [offerAll_cons, offer_of_free_pos f hc (by omega),
        ih hopen (by omega), hroom, hn, taking_taking, List.take_succ_cons,
        List.singleton_append]

/-- A connection stays open exactly as long as there is room for what it is offered. -/
theorem isOpen_offerAll_iff {c : Connection} (fs : List Frame) (hc : c.isOpen = true) :
    (c.offerAll fs).isOpen = true ↔ fs.length ≤ c.queue.free := by
  by_cases hfree : fs.length ≤ c.queue.free
  · rw [offerAll_of_le_free hc hfree, isOpen_taking]
    exact ⟨fun _ => hfree, fun _ => hc⟩
  · rw [offerAll_of_free_lt hc (by omega), isOpen_beginClose]
    exact ⟨fun h => absurd h Bool.false_ne_true, fun h => absurd h hfree⟩

end Connection

end ChatHub
