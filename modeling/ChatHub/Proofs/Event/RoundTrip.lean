import ChatHub.Event.Envelope
import ChatHub.Proofs.Json.Writing
/-!
Events come back from their frames as they were sent.
-/

namespace ChatHub

namespace Event

open Json (IsValue Raw Record Proper)

namespace Payload

/-- What the sender supplies as JSON is JSON. -/
def Grammatical : Payload → Prop
  | raw v => IsValue v.text
  | signal d => Proper d.payload
  | _ => True

theorem isValue_write {p : Payload} (hp : p.Grammatical) : IsValue p.write := by
  cases p with
  | raw v => exact hp
  | signal d => exact Json.isValue_object (by simp [Json.isValue_optional hp])
  | _ => exact Json.isValue_object (by simp)

theorem read?_write {p : Payload} (hp : p.Grammatical) : read? p.type ⟨p.write⟩ = some p := by
  cases p with
  | raw v => rfl
  | roomState d => simp [type, read?, readRoomState?, write, Record.required?, List.lookup_cons]
  | presence d => simp [type, read?, readPresence?, write, Record.required?, List.lookup_cons]
  | signal d =>
    have hvalue := Json.isValue_optional hp
    have hpayload := Raw.nullable?_eq_some.mpr (Json.isNullable_optional hp)
    simp [type, read?, readSignal?, write, Record.required?, Record.optional?, List.lookup_cons,
      hvalue, hpayload]
  | mediaState d => simp [type, read?, readMediaState?, write, Record.required?, List.lookup_cons]
  | typing d => simp [type, read?, readTyping?, write, Record.required?, List.lookup_cons]
  | deletion d => simp [type, read?, readDeletion?, write, Record.required?, List.lookup_cons]
  | activity d => simp [type, read?, readActivity?, write, Record.required?, List.lookup_cons]
  | member d =>
    simp [type, read?, readMember?, write, Record.required?, Record.withDefault?, List.lookup_cons]

theorem grammatical_of_readSignal? {v : Raw} {d : SignalRelay} (h : readSignal? v = some d) :
    (Payload.signal d).Grammatical := by
  simp only [readSignal?, Option.bind_eq_bind, Option.bind_eq_some_iff, Option.some.injEq] at h
  obtain ⟨r, hr, _, _, _, _, payload, hpayload, rfl⟩ := h
  have hgiven := Record.ofText?_eq_some.mp hr
  intro w hw
  rw [Record.optional?] at hpayload
  split at hpayload
  next u hu =>
    rcases Raw.nullable?_eq_some.mp hpayload with ⟨_, hnone⟩ | ⟨hproper, hsome⟩
    · rw [hnone] at hw
      cases hw
    · rw [hsome] at hw
      cases hw
      refine ⟨hgiven.isValue hu, fun hnull => hproper ?_⟩
      rw [hnull]
      exact Json.Shape.Describes.null.of
  next =>
    split at hpayload
    next => cases hpayload
    next =>
      cases hpayload
      cases hw

/-- A payload that is read has the form asked for, and the JSON in it is JSON. -/
theorem of_read? {type : PayloadType} {v : Raw} {p : Payload} (h : read? type v = some p)
    (hv : IsValue v.text) : p.type = type ∧ p.Grammatical := by
  cases type with
  | raw =>
    cases h
    exact ⟨rfl, hv⟩
  | signal =>
    obtain ⟨d, hd, rfl⟩ := Option.map_eq_some_iff.mp h
    exact ⟨rfl, grammatical_of_readSignal? hd⟩
  | _ =>
    obtain ⟨d, hd, rfl⟩ := Option.map_eq_some_iff.mp h
    exact ⟨rfl, trivial⟩

end Payload

theorem Kind.ofTag?_tag (kind : Kind) : Kind.ofTag? kind.tag = some kind := by
  cases kind <;> rfl

theorem read?_write {e : Event} (he : e.data.Grammatical) : read? e.data.type e.write = some e := by
  have hvalue := Payload.isValue_write he
  simp [read?, write, Record.required?, List.lookup_cons, hvalue, Json.case?_quote, Kind.ofTag?_tag,
    Payload.read?_write he]

theorem of_read? {type : PayloadType} {text : List Char} {e : Event}
    (h : read? type text = some e) : e.data.type = type ∧ e.data.Grammatical := by
  simp only [read?, Record.required?, Option.bind_eq_bind, Option.bind_eq_some_iff,
    Option.some.injEq] at h
  obtain ⟨r, hr, kind, _, data, ⟨v, hv, hdata⟩, rfl⟩ := h
  exact Payload.of_read? hdata ((Record.ofText?_eq_some.mp hr).isValue hv)

/-- An event that is read from a text is written again. -/
def rewrite? (type : PayloadType) (text : String) : Option String :=
  (read? type text.toList).map fun e => (Frame.event e).render

/-- What is read from the frame of an event is the event.  So no two events of a form have the same
frame, and a text that has been read and written again stays as it is from then on. -/
theorem frames_round_trip :
    (∀ e : Event, e.data.Grammatical →
      read? e.data.type (Frame.event e).render.toList = some e) ∧
    (∀ e e' : Event, e.data.Grammatical → e'.data.Grammatical → e.data.type = e'.data.type →
      (Frame.event e).render = (Frame.event e').render → e = e') ∧
    ∀ (type : PayloadType) (text frame : String),
      rewrite? type text = some frame → rewrite? type frame = some frame := by
  have hread {e : Event} (he : e.data.Grammatical) :
      read? e.data.type (Frame.event e).render.toList = some e := by
    rw [Frame.render, String.toList_ofList]
    exact read?_write he
  refine ⟨fun e he => hread he, ?_, ?_⟩
  · intro e e' he he' htype hframe
    have heq := hread he
    rw [hframe, htype, hread he'] at heq
    exact (Option.some.inj heq).symm
  · intro type text frame h
    obtain ⟨e, hread', rfl⟩ := Option.map_eq_some_iff.mp h
    obtain ⟨rfl, he⟩ := of_read? hread'
    rw [rewrite?, hread he, Option.map_some]

/-- A channel whose name would end its literal and go on with another sender does not get out of it,
and the negotiation keeps its blanks. -/
theorem ann_does_not_pass_for_eve :
    let e : Event := ⟨.voiceOffer,
      .signal ⟨"hall\",\"from_user_id\":\"eve", "ann\\", some ⟨"[1, null ]".toList⟩⟩⟩
    read? .signal (Frame.event e).render.toList = some e := by
  intro e
  have he : e.data.Grammatical := by
    intro v hv
    obtain rfl := Option.some.inj hv
    have htake : Json.takeRaw? "[1, null ]".toList = some (⟨"[1, null ]".toList⟩, []) := by
      decide +kernel
    obtain ⟨_, _, hvalue, _⟩ := Json.exists_of_takeRaw? htake
    exact ⟨hvalue, by decide⟩
  exact frames_round_trip.1 e he

end Event

end ChatHub
