import ChatHub.Command
import ChatHub.Proofs.Json.Record
/-!
The language of the commands: which texts are commands, and what is wrong with the others.
-/

namespace ChatHub.Command

open Json (Piece Raw Record Readable)

section Language

variable (skips : List Piece → Prop)

/-- The text gives a tag and perhaps data. -/
def Envelope (text : List Char) (tag : String) (data : Option Raw) : Prop :=
  ∃ r v, Record.Given skips ["type", "data"] text r ∧ r.get? "type" = some v ∧ v.IsString tag ∧
    r.Field "data" Raw.IsNullable none data

/-- The data names a channel. -/
def ChannelForm (v : Raw) (channel : ChannelId) : Prop :=
  ∃ r, Record.Given skips ["channel_id"] v.text r ∧ r.Field "channel_id" Raw.IsString "" channel

/-- The data is a signal. -/
def SignalForm (v : Raw) (s : Signal) : Prop :=
  ∃ r, Record.Given skips ["channel_id", "target_user_id", "payload"] v.text r ∧
    r.Field "channel_id" Raw.IsString "" s.channel ∧
    r.Field "target_user_id" Raw.IsString "" s.target ∧
    r.Field "payload" Raw.IsNullable none s.payload

/-- The data is a report of camera and screen. -/
def MediaForm (v : Raw) (report : MediaReport) : Prop :=
  ∃ r, Record.Given skips ["channel_id", "cam_enabled", "screen_sharing"] v.text r ∧
    r.Field "channel_id" Raw.IsString "" report.channel ∧
    r.Field "cam_enabled" Raw.IsBool false report.camera ∧
    r.Field "screen_sharing" Raw.IsBool false report.screen

/-- The tags of the commands that come with data. -/
def dataTags : List String :=
  ["subscribe", "typing", "voice.join", "voice.leave", "voice.offer", "voice.answer", "voice.ice",
    "voice.media_state"]

/-- The data has the form that belongs to the tag.  With it goes the command that is meant, and the
fields that must not be empty, in the order in which they are looked at. -/
inductive Drafts (v : Raw) : String → List (String × String) → Command → Prop where
  | subscribe {c : ChannelId} (hv : ChannelForm skips v c) :
      Drafts v "subscribe" [] (.subscribe (if c = "" then none else some c))
  | typing {c : ChannelId} (hv : ChannelForm skips v c) :
      Drafts v "typing" [("channel_id", c)] (.typing c)
  | voiceJoin {c : ChannelId} (hv : ChannelForm skips v c) :
      Drafts v "voice.join" [("channel_id", c)] (.voiceJoin c)
  | voiceLeave {c : ChannelId} (hv : ChannelForm skips v c) :
      Drafts v "voice.leave" [("channel_id", c)] (.voiceLeave c)
  | signal (kind : SignalKind) {s : Signal} (hv : SignalForm skips v s) :
      Drafts v kind.eventKind.tag [("channel_id", s.channel), ("target_user_id", s.target)]
        (.signal kind s)
  | mediaState {report : MediaReport} (hv : MediaForm skips v report) :
      Drafts v "voice.media_state" [("channel_id", report.channel)] (.mediaState report)

/-- What a text is taken for. -/
inductive Reading (text : List Char) : Except HubError Command → Prop where
  | malformed (h : ¬∃ tag data, Envelope skips text tag data) : Reading text (.error .malformed)
  | ping {data : Option Raw} (h : Envelope skips text "ping" data) : Reading text (.ok .ping)
  | unknown {tag : String} {data : Option Raw} (h : Envelope skips text tag data)
      (htag : tag ∉ "ping" :: dataTags) : Reading text (.ok (.unknown tag))
  | missing {tag : String} (h : Envelope skips text tag none) (htag : tag ∈ dataTags) :
      Reading text (.error (.missingField "data"))
  | unreadable {tag : String} {v : Raw} (h : Envelope skips text tag (some v))
      (htag : tag ∈ dataTags) (hv : ¬∃ required cmd, Drafts skips v tag required cmd) :
      Reading text (.error .malformed)
  | incomplete {tag field : String} {v : Raw} {present rest : List (String × String)}
      {cmd : Command} (h : Envelope skips text tag (some v))
      (hv : Drafts skips v tag (present ++ (field, "") :: rest) cmd)
      (hpresent : ∀ f ∈ present, f.2 ≠ "") : Reading text (.error (.missingField field))
  | complete {tag : String} {v : Raw} {required : List (String × String)} {cmd : Command}
      (h : Envelope skips text tag (some v)) (hv : Drafts skips v tag required cmd)
      (hrequired : ∀ f ∈ required, f.2 ≠ "") : Reading text (.ok cmd)

end Language

section Forms

variable {v : Raw}

theorem readEnvelope?_eq_some {text : List Char} {tag : String} {data : Option Raw} :
    readEnvelope? text = some (tag, data) ↔ Envelope Readable text tag data := by
  simp only [readEnvelope?, Envelope, Option.bind_eq_bind, Option.bind_eq_some_iff,
    Option.some.injEq, Prod.mk.injEq, Record.required?, Record.ofText?_eq_some,
    Raw.string?_eq_some, Record.withDefault?_eq_some Raw.nullable?_eq_some]
  constructor
  · rintro ⟨r, hr, _, ⟨v, hv, htag⟩, _, hdata, rfl, rfl⟩
    exact ⟨r, v, hr, hv, htag, hdata⟩
  · rintro ⟨r, v, hr, hv, htag, hdata⟩
    exact ⟨r, hr, tag, ⟨v, hv, htag⟩, data, hdata, rfl, rfl⟩

theorem readChannel?_eq_some {channel : ChannelId} :
    readChannel? v = some channel ↔ ChannelForm Readable v channel := by
  simp only [readChannel?, ChannelForm, Option.bind_eq_bind, Option.bind_eq_some_iff,
    Record.ofText?_eq_some, Record.withDefault?_eq_some Raw.string?_eq_some]

theorem readSignal?_eq_some {s : Signal} :
    readSignal? v = some s ↔ SignalForm Readable v s := by
  simp only [readSignal?, SignalForm, Option.bind_eq_bind, Option.bind_eq_some_iff,
    Option.some.injEq, Record.ofText?_eq_some, Record.withDefault?_eq_some Raw.string?_eq_some,
    Record.withDefault?_eq_some Raw.nullable?_eq_some]
  constructor
  · rintro ⟨r, hr, _, hchannel, _, htarget, _, hpayload, rfl⟩
    exact ⟨r, hr, hchannel, htarget, hpayload⟩
  · rintro ⟨r, hr, hchannel, htarget, hpayload⟩
    exact ⟨r, hr, _, hchannel, _, htarget, _, hpayload, rfl⟩

theorem readMediaReport?_eq_some {report : MediaReport} :
    readMediaReport? v = some report ↔ MediaForm Readable v report := by
  simp only [readMediaReport?, MediaForm, Option.bind_eq_bind, Option.bind_eq_some_iff,
    Option.some.injEq, Record.ofText?_eq_some, Record.withDefault?_eq_some Raw.string?_eq_some,
    Record.withDefault?_eq_some Raw.bool?_eq_some]
  constructor
  · rintro ⟨r, hr, _, hchannel, _, hcamera, _, hscreen, rfl⟩
    exact ⟨r, hr, hchannel, hcamera, hscreen⟩
  · rintro ⟨r, hr, hchannel, hcamera, hscreen⟩
    exact ⟨r, hr, _, hchannel, _, hcamera, _, hscreen, rfl⟩

end Forms

section Drafts

variable {tag : String} {v : Raw} {required : List (String × String)} {cmd : Command}

/-- The draft that is made of the data. -/
def draft? (tag : String) (v : Raw) : Option (List (String × String) × Command) :=
  let reported (report : MediaReport) : List (String × String) × Command :=
    ([("channel_id", report.channel)], .mediaState report)
  let placed (make : ChannelId → Command) (c : ChannelId) : List (String × String) × Command :=
    ([("channel_id", c)], make c)
  let signalled (kind : SignalKind) (s : Signal) : List (String × String) × Command :=
    ([("channel_id", s.channel), ("target_user_id", s.target)], .signal kind s)
  match tag with
  | "subscribe" => (readChannel? v).map fun c => ([], .subscribe (nonempty c))
  | "typing" => (readChannel? v).map (placed .typing)
  | "voice.join" => (readChannel? v).map (placed .voiceJoin)
  | "voice.leave" => (readChannel? v).map (placed .voiceLeave)
  | "voice.offer" => (readSignal? v).map (signalled .offer)
  | "voice.answer" => (readSignal? v).map (signalled .answer)
  | "voice.ice" => (readSignal? v).map (signalled .ice)
  | "voice.media_state" => (readMediaReport? v).map reported
  | _ => none

/-- A draft is a command unless a field is empty that must not be. -/
def finish (required : List (String × String)) (cmd : Command) : Except HubError Command :=
  match required with
  | [] => .ok cmd
  | (field, value) :: rest => do
      require value field
      finish rest cmd

theorem nonempty_eq (c : ChannelId) : nonempty c = if c = "" then none else some c := by
  simp only [nonempty, String.isEmpty_iff]

theorem Drafts.mem_dataTags {skips : List Piece → Prop}
    (h : Drafts skips v tag required cmd) : tag ∈ dataTags := by
  cases h with
  | signal kind => cases kind <;> decide
  | _ => decide

theorem draft?_eq_some :
    draft? tag v = some (required, cmd) ↔ Drafts Readable v tag required cmd := by
  constructor
  · intro h
    unfold draft? at h
    split at h
    next =>
      obtain ⟨c, hc, heq⟩ := Option.map_eq_some_iff.mp h
      cases heq
      rw [nonempty_eq]
      exact .subscribe (readChannel?_eq_some.mp hc)
    next =>
      obtain ⟨c, hc, heq⟩ := Option.map_eq_some_iff.mp h
      cases heq
      exact .typing (readChannel?_eq_some.mp hc)
    next =>
      obtain ⟨c, hc, heq⟩ := Option.map_eq_some_iff.mp h
      cases heq
      exact .voiceJoin (readChannel?_eq_some.mp hc)
    next =>
      obtain ⟨c, hc, heq⟩ := Option.map_eq_some_iff.mp h
      cases heq
      exact .voiceLeave (readChannel?_eq_some.mp hc)
    next =>
      obtain ⟨s, hs, heq⟩ := Option.map_eq_some_iff.mp h
      cases heq
      exact .signal .offer (readSignal?_eq_some.mp hs)
    next =>
      obtain ⟨s, hs, heq⟩ := Option.map_eq_some_iff.mp h
      cases heq
      exact .signal .answer (readSignal?_eq_some.mp hs)
    next =>
      obtain ⟨s, hs, heq⟩ := Option.map_eq_some_iff.mp h
      cases heq
      exact .signal .ice (readSignal?_eq_some.mp hs)
    next =>
      obtain ⟨report, hreport, heq⟩ := Option.map_eq_some_iff.mp h
      cases heq
      exact .mediaState (readMediaReport?_eq_some.mp hreport)
    next => cases h
  · intro h
    cases h with
    | subscribe hv => simp only [draft?, readChannel?_eq_some.mpr hv, Option.map_some, nonempty_eq]
    | typing hv => simp only [draft?, readChannel?_eq_some.mpr hv, Option.map_some]
    | voiceJoin hv => simp only [draft?, readChannel?_eq_some.mpr hv, Option.map_some]
    | voiceLeave hv => simp only [draft?, readChannel?_eq_some.mpr hv, Option.map_some]
    | signal kind hv =>
      cases kind <;>
        simp only [draft?, SignalKind.eventKind, Event.Kind.tag, readSignal?_eq_some.mpr hv,
          Option.map_some]
    | mediaState hv => simp only [draft?, readMediaReport?_eq_some.mpr hv, Option.map_some]

theorem finish_eq_ok (hrequired : ∀ f ∈ required, f.2 ≠ "") : finish required cmd = .ok cmd := by
  induction required with
  | nil => rfl
  | cons f rest ih =>
    obtain ⟨hf, hrest⟩ := List.forall_mem_cons.mp hrequired
    have hvalue : require f.2 f.1 = .ok () := if_neg (by simpa using hf)
    rw [finish, hvalue]
    exact ih hrest

theorem finish_eq_error {present rest : List (String × String)} {field : String}
    (hpresent : ∀ f ∈ present, f.2 ≠ "") :
    finish (present ++ (field, "") :: rest) cmd = .error (.missingField field) := by
  induction present with
  | nil => rfl
  | cons f present ih =>
    obtain ⟨hf, hrest⟩ := List.forall_mem_cons.mp hpresent
    have hvalue : require f.2 f.1 = .ok () := if_neg (by simpa using hf)
    rw [List.cons_append, finish, hvalue]
    exact ih hrest

/-- Either nothing is empty, or there is a first field that is. -/
theorem exists_first_empty (required : List (String × String)) :
    (∀ f ∈ required, f.2 ≠ "") ∨ ∃ present field rest,
      required = present ++ (field, "") :: rest ∧ ∀ f ∈ present, f.2 ≠ "" := by
  induction required with
  | nil => exact Or.inl (by simp)
  | cons f required ih =>
    obtain ⟨field, value⟩ := f
    by_cases hvalue : value = ""
    · exact Or.inr ⟨[], field, required, by rw [hvalue, List.nil_append], by simp⟩
    · rcases ih with hall | ⟨present, empty, rest, rfl, hpresent⟩
      · exact Or.inl (List.forall_mem_cons.mpr ⟨hvalue, hall⟩)
      · exact Or.inr ⟨(field, value) :: present, empty, rest, rfl,
          List.forall_mem_cons.mpr ⟨hvalue, hpresent⟩⟩

theorem decodeChannel_some (make : ChannelId → Command) (v : Raw) :
    (decodeChannel (some v)).map make =
      match readChannel? v with
      | some c => finish [("channel_id", c)] (make c)
      | none => .error .malformed := by
  cases hread : readChannel? v with
  | none => simp only [decodeChannel, payload, hread, bind, Except.bind, Except.map]
  | some c =>
    simp only [decodeChannel, payload, hread, finish, bind, Except.bind]
    cases require c "channel_id" with
    | error e => rfl
    | ok u => rfl

theorem ofTag_none (htag : tag ∈ dataTags) : ofTag tag none = .error (.missingField "data") := by
  simp only [dataTags, List.mem_cons, List.not_mem_nil, or_false] at htag
  rcases htag with rfl | rfl | rfl | rfl | rfl | rfl | rfl | rfl <;> rfl

theorem ofTag_of_not_mem (htag : tag ∉ "ping" :: dataTags) (data : Option Raw) :
    ofTag tag data = .ok (.unknown tag) := by
  unfold ofTag
  split
  case h_10 => rfl
  all_goals exact absurd (by decide) htag

/-- Data is drafted and the draft finished. -/
theorem ofTag_some (htag : tag ∈ dataTags) (v : Raw) :
    ofTag tag (some v) = match draft? tag v with
      | some d => finish d.1 d.2
      | none => .error .malformed := by
  simp only [dataTags, List.mem_cons, List.not_mem_nil, or_false] at htag
  rcases htag with rfl | rfl | rfl | rfl | rfl | rfl | rfl | rfl
  · simp only [ofTag, draft?, payload]
    cases readChannel? v <;> rfl
  · simp only [ofTag, draft?, decodeChannel_some]
    cases readChannel? v <;> rfl
  · simp only [ofTag, draft?, decodeChannel_some]
    cases readChannel? v <;> rfl
  · simp only [ofTag, draft?, decodeChannel_some]
    cases readChannel? v <;> rfl
  · simp only [ofTag, draft?, decodeSignal, payload]
    cases readSignal? v <;> rfl
  · simp only [ofTag, draft?, decodeSignal, payload]
    cases readSignal? v <;> rfl
  · simp only [ofTag, draft?, decodeSignal, payload]
    cases readSignal? v <;> rfl
  · simp only [ofTag, draft?, decodeMediaState, payload]
    cases readMediaReport? v <;> rfl

end Drafts

theorem reading_decode (text : String) : Reading Readable text.toList (decode text) := by
  rw [decode]
  cases henvelope : readEnvelope? text.toList with
  | none =>
    refine .malformed ?_
    rintro ⟨tag, data, h⟩
    rw [readEnvelope?_eq_some.mpr h] at henvelope
    cases henvelope
  | some envelope =>
    obtain ⟨tag, data⟩ := envelope
    have h := readEnvelope?_eq_some.mp henvelope
    by_cases hping : tag = "ping"
    · subst hping
      exact .ping h
    by_cases htag : tag ∈ dataTags
    · cases data with
      | none =>
        simp only [ofTag_none htag]
        exact .missing h htag
      | some v =>
        simp only [ofTag_some htag]
        cases hdraft : draft? tag v with
        | none =>
          refine .unreadable h htag ?_
          rintro ⟨required, cmd, hv⟩
          rw [draft?_eq_some.mpr hv] at hdraft
          cases hdraft
        | some d =>
          obtain ⟨required, cmd⟩ := d
          have hv := draft?_eq_some.mp hdraft
          rcases exists_first_empty required with hall | ⟨present, field, rest, rfl, hpresent⟩
          · simp only [finish_eq_ok hall]
            exact .complete h hv hall
          · simp only [finish_eq_error hpresent]
            exact .incomplete h hv hpresent
    · have hout : tag ∉ "ping" :: dataTags := by
        rw [List.mem_cons, not_or]
        exact ⟨hping, htag⟩
      simp only [ofTag_of_not_mem hout]
      exact .unknown h hout

theorem Reading.decode_eq {text : String} {r : Except HubError Command}
    (h : Reading Readable text.toList r) : decode text = r := by
  have hread {tag : String} {data : Option Raw} (h : Envelope Readable text.toList tag data) :
      decode text = ofTag tag data := by
    simp only [decode, readEnvelope?_eq_some.mpr h]
  cases h with
  | malformed h =>
    rw [decode]
    split
    next tag data henvelope => exact absurd ⟨tag, data, readEnvelope?_eq_some.mp henvelope⟩ h
    next => rfl
  | ping h => exact hread h
  | unknown h htag => rw [hread h, ofTag_of_not_mem htag]
  | missing h htag => rw [hread h, ofTag_none htag]
  | @unreadable tag v h htag hv =>
    rw [hread h, ofTag_some htag]
    split
    next d hdraft => exact absurd ⟨d.1, d.2, draft?_eq_some.mp hdraft⟩ hv
    next => rfl
  | incomplete h hv hpresent =>
    rw [hread h, ofTag_some hv.mem_dataTags, draft?_eq_some.mpr hv]
    exact finish_eq_error hpresent
  | complete h hv hrequired =>
    rw [hread h, ofTag_some hv.mem_dataTags, draft?_eq_some.mpr hv]
    exact finish_eq_ok hrequired

/-- Every text is taken for what it reads as, provided that the names of all its members and of all
members of its data stand for texts, also of those that are passed over. -/
theorem decode_eq_iff_reading (text : String) (r : Except HubError Command) :
    decode text = r ↔ Reading Readable text.toList r := by
  constructor
  · rintro rfl
    exact reading_decode text
  · exact Reading.decode_eq

/-- Both fields are empty; the channel is looked at first. -/
example : decode "[\"voice.ice\",[\"\",\"\"]]" = .error (.missingField "channel_id") := by
  decide +kernel

/-- A ping, next to it a member that is passed over, whose name is half of a pair of units. -/
def strayPing : String := "\x7b\"\\ud800\":0,\"type\":\"ping\"\x7d"

/-- A name that stands for no text spoils the frame, though nothing asks for the member. -/
theorem strayPing_is_malformed :
    Reading (fun _ => True) strayPing.toList (.ok .ping) ∧
      decode strayPing = .error .malformed := by
  let name (s : String) : List Piece := s.toList.map .plain
  let tag : Raw := ⟨Json.quote "ping"⟩
  have hshape : (Json.Shape.object [([.unit 0xD800], ⟨['0']⟩), (name "type", tag)]).Of
      strayPing.toList := Json.Shape.ofText?_eq_some.mp (by decide +kernel)
  have hknown : Record.Known (fun _ => True) ["type", "data"]
      [([.unit 0xD800], ⟨['0']⟩), (name "type", tag)] [("type", tag)] := by
    refine .other _ trivial ?_ (.field _ (Json.text?_eq_some.mp (by decide)) (by simp) .nil)
    intro n _ hn
    cases Json.text?_eq_some.mpr hn
  have hping : tag.IsString "ping" := Raw.string?_eq_some.mp (by decide +kernel)
  refine ⟨?_, by decide +kernel⟩
  exact .ping ⟨_, tag, .object hshape hknown (by simp), rfl, hping, .absent rfl⟩

end ChatHub.Command
