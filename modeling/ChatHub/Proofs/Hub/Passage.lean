import ChatHub.Proofs.Command.Decoding
import ChatHub.Proofs.Event.RoundTrip
import ChatHub.Proofs.Hub.Tidiness
import ChatHub.Proofs.Json.Place
/-!
The way of a signal, from the text of the one who sends it to the frames of those who get it.  Its
payload is cut out twice, first with the data of the frame and then out of the data, and put into
another frame, and is the same text all the way.
-/

namespace ChatHub

namespace Command

open Json (Raw Record Readable)

/-- Between these two texts the value stands for the payload in the data of a frame. -/
inductive PayloadAt : List Char → Raw → List Char → Prop where
  | mk {left right innerLeft innerRight : List Char} {v : Raw}
      (hdata : Record.Stands ["type", "data"] "data" left ⟨innerLeft ++ (v.text ++ innerRight)⟩
        right)
      (hpayload : Record.Stands ["channel_id", "target_user_id", "payload"] "payload" innerLeft v
        innerRight) : PayloadAt (left ++ innerLeft) v (innerRight ++ right)

/-- The part of the text that is its payload, or `null` if it has none. -/
def IsPayload (text p : List Char) : Prop :=
  (∃ left right, text = left ++ (p ++ right) ∧ PayloadAt left ⟨p⟩ right) ∨
    (¬ ∃ left v right, text = left ++ (v.text ++ right) ∧ PayloadAt left v right) ∧ p = Json.null

section Decode

variable {kind : SignalKind} {s : Signal}

/-- What a text that is taken for a signal looks like. -/
theorem exists_signalForm {text : String} (hdecode : decode text = .ok (.signal kind s)) :
    ∃ data, Envelope Readable text.toList kind.eventKind.tag (some data) ∧
      SignalForm Readable data s := by
  have hreading := reading_decode text
  rw [hdecode] at hreading
  cases hreading with
  | complete henvelope hdraft =>
    cases hdraft with
    | signal kind hform => exact ⟨_, henvelope, hform⟩

theorem Envelope.get?_data {text : List Char} {tag : String} {data : Raw}
    (henvelope : Envelope Readable text tag (some data)) :
    ∃ r, Record.Given Readable ["type", "data"] text r ∧ r.get? "data" = some data := by
  obtain ⟨r, _, hgiven, _, _, hdata⟩ := henvelope
  refine ⟨r, hgiven, ?_⟩
  cases hdata with
  | given hget hnullable =>
    rcases hnullable with ⟨_, hnone⟩ | ⟨_, hsome⟩
    · cases hnone
    · rw [hget, hsome]

/-- The readers come to the payload where it stands. -/
theorem payloadAt_iff {text : List Char} {tag : String} {data v : Raw} {r : Record}
    (henvelope : Envelope Readable text tag (some data))
    (hgiven : Record.Given Readable ["channel_id", "target_user_id", "payload"] data.text r) :
    (∃ left right, text = left ++ (v.text ++ right) ∧ PayloadAt left v right) ↔
      r.get? "payload" = some v := by
  obtain ⟨outer, houter, hdata⟩ := henvelope.get?_data
  rw [hgiven.get?_eq_some_iff (by decide) (by decide)]
  constructor
  · rintro ⟨_, _, htext, hat⟩
    cases hat with
    | @mk left right innerLeft innerRight _ hstands hpayload =>
      have hplaced : outer.get? "data" = some ⟨innerLeft ++ (v.text ++ innerRight)⟩ := by
        rw [houter.get?_eq_some_iff (by decide) (by decide)]
        refine ⟨left, right, ?_, hstands⟩
        simp only [htext, List.append_assoc]
      obtain rfl := Option.some.inj (hdata.symm.trans hplaced)
      exact ⟨innerLeft, innerRight, rfl, hpayload⟩
  · rintro ⟨innerLeft, innerRight, hinner, hpayload⟩
    obtain ⟨left, right, htext, hstands⟩ :=
      (houter.get?_eq_some_iff (by decide) (by decide)).mp hdata
    obtain ⟨_⟩ := data
    obtain rfl : _ = innerLeft ++ (v.text ++ innerRight) := hinner
    refine ⟨left ++ innerLeft, innerRight ++ right, ?_, .mk hstands hpayload⟩
    simp only [htext, List.append_assoc]

/-- What a signal carries is the payload of its text. -/
theorem isPayload_iff {text : String} (hdecode : decode text = .ok (.signal kind s))
    {p : List Char} :
    IsPayload text.toList p ↔ p = Json.optional Json.raw s.payload := by
  obtain ⟨data, henvelope, r, hgiven, _, _, hpayload⟩ := exists_signalForm hdecode
  have hat (v : Raw) := payloadAt_iff (v := v) henvelope hgiven
  have hsome : (∃ left v right, text.toList = left ++ (v.text ++ right) ∧ PayloadAt left v right) ↔
      ∃ v, r.get? "payload" = some v := by
    simp only [← hat]
    exact ⟨fun ⟨left, v, right, hv⟩ => ⟨v, left, right, hv⟩,
      fun ⟨v, left, right, hv⟩ => ⟨left, v, right, hv⟩⟩
  rw [IsPayload, hat ⟨p⟩, hsome]
  generalize s.payload = payload at hpayload ⊢
  cases hpayload with
  | @given v _ hget hnullable =>
    have htext : Json.optional Json.raw payload = v.text := by
      rcases hnullable with ⟨hnull, rfl⟩ | ⟨_, rfl⟩
      · exact (hnull.describes (hgiven.isValue hget)).eq_null.symm
      · rfl
    rw [htext, hget]
    constructor
    · rintro (heq | ⟨hnone, _⟩)
      · rw [Option.some.inj heq]
      · exact absurd ⟨v, rfl⟩ hnone
    · rintro rfl
      exact Or.inl rfl
  | absent hget =>
    rw [hget]
    simp only [reduceCtorEq, exists_false, not_false_eq_true, true_and, false_or]
    rfl

theorem SignalForm.proper {data : Raw} (hform : SignalForm Readable data s) :
    Json.Proper s.payload := by
  obtain ⟨r, hgiven, _, _, hpayload⟩ := hform
  generalize s.payload = payload at hpayload
  intro w hw
  subst hw
  cases hpayload with
  | given hget hnullable =>
    rcases hnullable with ⟨_, hnone⟩ | ⟨hproper, hsome⟩
    · cases hnone
    · cases hsome
      refine ⟨hgiven.isValue hget, fun hnull => hproper ?_⟩
      rw [hnull]
      exact Json.Shape.Describes.null.of

end Decode

end Command

namespace Hub

/-- The frame in which a signal is passed on, as it goes over the wire. -/
def relayText (tag channel sender : String) (payload : List Char) : String :=
  "\x7b\"type\":\"" ++ tag ++ "\",\"data\":\x7b\"channel_id\":" ++
    String.ofList (Json.quote channel) ++ ",\"from_user_id\":" ++
    String.ofList (Json.quote sender) ++ ",\"payload\":" ++ String.ofList payload ++ "\x7d\x7d"

theorem render_signalEvent (sender : Peer) (kind : SignalKind) (s : Signal) :
    (Frame.event (signalEvent sender kind s)).render =
      relayText kind.eventKind.tag s.channel sender.user (Json.optional Json.raw s.payload) := by
  have htag : Json.quote kind.eventKind.tag = '"' :: (kind.eventKind.tag.toList ++ ['"']) := by
    cases kind <;> decide
  have hnames : ["type", "data", "channel_id", "from_user_id", "payload"].map Json.quote =
      ["\"type\"", "\"data\"", "\"channel_id\"", "\"from_user_id\"", "\"payload\""].map
        String.toList := by decide
  obtain ⟨htype, hdata, hchannel, hfrom, hpayload⟩ := by simpa only [List.map_cons, List.map_nil,
    List.cons.injEq, and_true] using hnames
  -- an equation for `relayText` would be proved by comparing the bytes of both sides
  delta relayText
  rw [← String.toList_inj]
  simp only [Frame.render, Event.write, Event.Payload.write, signalEvent, Json.object, Json.commas,
    Json.member, List.map_cons, List.map_nil, String.toList_append, String.toList_ofList, htag,
    htype, hdata, hchannel, hfrom, hpayload]
  simp only [String.reduceToList, List.cons_append, List.nil_append, List.append_assoc]

section Forward

variable {h : Hub}

/-- A relay that gets through puts its frame into the queues of so many connections of the target,
and no more than news of those who had to go into any queue beside it. -/
theorem Keyed.exists_receivers (hk : h.Keyed) {sender : Peer} {kind : SignalKind} {s : Signal}
    {n : Nat} (hforwarded : (h.relaySignal sender kind s).2 = .forwarded n) :
    ∃ receivers : List Peer, receivers.Nodup ∧ receivers.length = n ∧
      (∀ x ∈ receivers, x ∈ h.registered ∧ x.user = s.target) ∧
      ∀ x, h.Knows x → ∃ news, gained h (h.relaySignal sender kind s).1 x =
          (if x ∈ receivers then [.event (signalEvent sender kind s)] else []) ++ news ∧
        ∀ g ∈ news, ∃ channel user, g = leftFrame channel user := by
  have hmay : h.MaySignal sender s := by
    by_contra hnot
    rw [relaySignal_of_not_maySignal hnot] at hforwarded
    cases hforwarded
  let targets := h.registered.filter (·.user == s.target)
  let receivers := targets.filter fun x =>
    (h.connection x).isOpen && decide (0 < (h.connection x).queue.free)
  have hknown : ∀ x ∈ targets, h.Knows x := fun x hx => hk.known x (List.mem_filter.mp hx).1
  have hnodup : targets.Nodup := hk.registered_nodup.filter _
  have hcount : (h.relaySignal sender kind s).2 = .forwarded receivers.length := by
    rw [relaySignal_of_maySignal hmay]
    change Relayed.forwarded (push _ _ h).delivered = _
    rw [push_delivered _ h (handles_nodup hknown hnodup), List.countP_eq_length_filter]
  refine ⟨receivers, hnodup.filter _, Relayed.forwarded.inj (hcount.symm.trans hforwarded), ?_, ?_⟩
  · intro x hx
    obtain ⟨hregistered, huser⟩ := List.mem_filter.mp (List.mem_filter.mp hx).1
    exact ⟨hregistered, beq_iff_eq.mp huser⟩
  · intro x hx
    obtain ⟨news, hnews, hall⟩ :=
      exists_gained_deliver (.event (signalEvent sender kind s)) hknown hnodup hx
    refine ⟨news, ?_, hall⟩
    rw [relaySignal_of_maySignal hmay]
    change gained h (deliver _ _ h).1 x = _
    rw [hnews]
    congr 1
    simp only [receivers, List.mem_filter, Bool.and_eq_true, decide_eq_true_eq]

end Forward

/-- Whatever has happened before: if a text is a signal and the signal gets through to `n`
connections, each of them gets one frame with the payload that stands in the text, to the letter,
and the frame reads as the signal.  Everything else that the call puts into queues tells of those
who had to go. -/
theorem signals_pass_verbatim (limits : Limits) (ops : List Operation) {text : String}
    {kind : SignalKind} {s : Signal} (hdecode : Command.decode text = .ok (.signal kind s))
    (sender : Peer) {n : Nat}
    (hforwarded : ((run (new limits) ops).relaySignal sender kind s).2 = .forwarded n) :
    let h := run (new limits) ops
    let h' := (h.relaySignal sender kind s).1
    let payload := Json.optional Json.raw s.payload
    let e : Event := ⟨kind.eventKind, .signal ⟨s.channel, sender.user, s.payload⟩⟩
    let frame := relayText kind.eventKind.tag s.channel sender.user payload
    (∃ data, Command.Envelope Json.Readable text.toList kind.eventKind.tag data) ∧
      (∀ p, Command.IsPayload text.toList p ↔ p = payload) ∧
      (∀ i, h.peer? i = some sender → (h.connection sender).isOpen = true →
        (h.perform (.handleText i text)).1 = h') ∧
      (Frame.event e).render = frame ∧ Event.read? .signal frame.toList = some e ∧
      ∃ receivers : List Peer, receivers.Nodup ∧ receivers.length = n ∧
        (∀ x ∈ receivers, x ∈ h.registered ∧ x.user = s.target) ∧
        ∀ x, h.Knows x → ∃ news, (h'.connection x).queue.waiting =
            (h.connection x).queue.waiting ++
              ((if x ∈ receivers then [.event e] else []) ++ news) ∧
          ∀ g ∈ news, ∃ channel user, g = leftFrame channel user := by
  intro h h' payload e frame
  have hk : h.Keyed := ((tidy_new limits).run ops).toKeyed
  obtain ⟨data, henvelope, hform⟩ := Command.exists_signalForm hdecode
  have hrender : (Frame.event e).render = frame := render_signalEvent sender kind s
  refine ⟨⟨_, henvelope⟩, fun p => Command.isPayload_iff hdecode, ?_, hrender, ?_, ?_⟩
  · intro i hi hopen
    rw [perform_handleText_of_ok hdecode, perform_handle hi]
    simp only [handle, hopen, if_true]
    rfl
  · have hread : Event.read? e.data.type e.write = some e := Event.read?_write hform.proper
    rw [← hrender, Frame.render, String.toList_ofList]
    exact hread
  · obtain ⟨receivers, hnodup, hlength, hreceivers, hgained⟩ := hk.exists_receivers hforwarded
    refine ⟨receivers, hnodup, hlength, hreceivers, fun x hx => ?_⟩
    obtain ⟨news, hnews, hall⟩ := hgained x hx
    have hgrows : Grows (fun _ _ => True) h h' :=
      .relaySignal (fun _ _ _ => trivial) h fun _ _ _ _ _ => trivial
    refine ⟨news, ?_, hall⟩
    rw [hgrows.waiting_eq x, hnews]
    rfl

/-- Ann calls Bob.  Neither the blanks, nor the way the number is written, nor half a surrogate pair
are touched on the way. -/
theorem bob_gets_every_letter :
    let payload := "\x7b \"sdp\":\"\\ud800 \\u0041\" , \"port\" : -0.10E+2\x7d"
    let text := "[ \"voice.offer\" ,\x7b \"payload\" : " ++ payload ++
      " ,\"target_user_id\":\"bob\", \"channel_id\":\"h\\u0061ll\"\x7d]"
    let h := run (new .standard) [.connect "ann", .connect "bob", .enterRoom 0 "hall",
      .enterRoom 1 "hall"]
    let h' := (h.perform (.handleText 0 text)).1
    let frame := relayText "voice.offer" "hall" "ann" payload.toList
    Command.IsPayload text.toList payload.toList ∧
      (gained h h' ⟨1, .fresh 1, "bob"⟩).map Frame.render = [frame] ∧
      Event.read? .signal frame.toList =
        some ⟨.voiceOffer, .signal ⟨"hall", "ann", some ⟨payload.toList⟩⟩⟩ := by
  intro payload text h h' frame
  have hdecode : Command.decode text =
      .ok (.signal .offer ⟨"hall", "bob", some ⟨payload.toList⟩⟩) := by decide +kernel
  have hforwarded : (h.relaySignal ⟨0, .fresh 0, "ann"⟩ .offer
      ⟨"hall", "bob", some ⟨payload.toList⟩⟩).2 = .forwarded 1 := by decide +kernel
  obtain ⟨_, hpayload, _, hrender, hread, _⟩ :=
    signals_pass_verbatim .standard _ hdecode ⟨0, .fresh 0, "ann"⟩ hforwarded
  refine ⟨(hpayload _).mpr rfl, ?_, hread⟩
  have hgained : gained h h' ⟨1, .fresh 1, "bob"⟩ =
      [.event ⟨.voiceOffer, .signal ⟨"hall", "ann", some ⟨payload.toList⟩⟩⟩] := by decide +kernel
  rw [hgained]
  exact congrArg (fun t => [t]) hrender

end Hub

end ChatHub
