import ChatHub.Proofs.Hub.Tidiness
/-!
In whose name the hub speaks.  Whatever a client writes into its frames, what others get to read in
consequence bears the name of the client itself, or tells of somebody whom the same call has taken
down.
-/

namespace ChatHub.Hub

/-- The frame tells a room of a connection that has been taken down from `h` to `h'`.  The room had
its name before, or got it from `p`, who joins it with the command `c`, and has it no more. -/
def TellsEviction (h h' : Hub) (p : Peer) (c : Command) (f : Frame) : Prop :=
  ∃ d channel, f = leftFrame channel d.user ∧ h.Ousted h' d ∧
    (h.rooms.contains channel d.id = true ∨ c = .voiceJoin channel ∧ d.id = p.id) ∧
    h'.rooms.contains channel d.id = false

section Handle

variable {h : Hub} (ht : h.Tidy) {p : Peer} (hp : h.Knows p)

theorem contains_entering {c : Command} {channel : ChannelId} {id : ConnectionId}
    (hin : (h.entering p c).rooms.contains channel id = true) :
    h.rooms.contains channel id = true ∨ c = .voiceJoin channel ∧ id = p.id := by
  cases c with
  | voiceJoin room =>
    simp only [entering, move, Rooms.join] at hin
    split at hin
    next => exact Or.inl hin
    next =>
      obtain ⟨m, hm, rfl⟩ := Rooms.contains_iff_exists.mp hin
      rcases Rooms.mem_members_insert.mp hm with ⟨rfl, rfl⟩ | ⟨hold, _⟩
      · exact Or.inr ⟨rfl, rfl⟩
      · exact Or.inl (Rooms.contains_iff_exists.mpr ⟨m, hold, rfl⟩)
  | _ => exact Or.inl hin

include ht hp

/-- What a command puts into the queues. -/
theorem Tidy.gained_handle (c : Command) {x : Peer} (hx : h.Knows x) :
    ((h.handle p c).connection x).queue.waiting =
        (h.connection x).queue.waiting ++ gained h (h.handle p c) x ∧
      ∀ f ∈ gained h (h.handle p c) x,
        h.Says p x c f ∨ h.TellsEviction (h.handle p c) p c f := by
  cases hopen : (h.connection p).isOpen with
  | false =>
    have hsame : h.handle p c = h := by
      simp only [handle, hopen, Bool.false_eq_true, if_false]
    rw [hsame, gained_eq_nil_of_le (Nat.le_refl _), List.append_nil]
    exact ⟨rfl, fun _ hf => absurd hf List.not_mem_nil⟩
  | true =>
    have hcalm := ht.calm_handle hp hopen c
    have htable : (h.entering p c).table = h.table := by cases c <;> rfl
    have hsame : ∀ q, (h.entering p c).connection q = h.connection q := by
      simp only [connection, htable, implies_true]
    have hgained : gained (h.entering p c) (h.handle p c) x = gained h (h.handle p c) x := by
      simp only [gained, hsame]
    refine ⟨?_, fun f hf => ?_⟩
    · rw [hcalm.grows.waiting_eq x, hgained, hsame]
    · rw [← hgained] at hf
      rcases hcalm.grows.of_mem_gained hf with ⟨y, hy, hhandle, htold⟩ | ⟨d, channel, hv, rfl⟩
      · exact Or.inl (hy.eq_of_handle hx hhandle ▸ htold)
      · refine Or.inr ⟨d, channel, rfl, ?_, contains_entering hv.inside, hv.outside⟩
        refine ⟨?_, hsame d ▸ hv.opened, hv.closed, hv.queue_closed, hv.unregistered⟩
        have hknown := hv.known
        simpa only [Knows, peer?, htable] using hknown

end Handle

/-- Whatever has happened before and whatever text a connection sends: each frame that this puts
into a queue says something in the name of the user of that connection, to those whom it concerns,
or tells a room of somebody whom the call has taken down.  Of the former there are pongs and room
states for the connection itself, typing for those who look at the channel, news of who joins or
leaves, signals, and media states for the others in a room that the connection is in. -/
theorem nobody_speaks_for_others (limits : Limits) (ops : List Operation) (text : String) {i : Nat}
    {p : Peer} (hp : (run (new limits) ops).peer? i = some p) :
    let h := run (new limits) ops
    let h' := (h.perform (.handleText i text)).1
    ∀ x, h.Knows x →
      (h'.connection x).queue.waiting = (h.connection x).queue.waiting ++ gained h h' x ∧
      ∀ f ∈ gained h h' x, ∃ c, Command.decode text = .ok c ∧
        (h.Says p x c f ∨ h.TellsEviction h' p c f) := by
  intro h h' x hx
  have ht : h.Tidy := (tidy_new limits).run ops
  have hknows : h.Knows p := ht.knows_of_peer? hp
  cases hdecode : Command.decode text with
  | error e =>
    have hsame : h' = h := congrArg Prod.fst (perform_handleText_of_error hp hdecode)
    rw [hsame, gained_eq_nil_of_le (Nat.le_refl _), List.append_nil]
    exact ⟨rfl, fun _ hf => absurd hf List.not_mem_nil⟩
  | ok c =>
    have hsame : h' = h.handle p c :=
      congrArg Prod.fst ((perform_handleText_of_ok hdecode).trans (perform_handle hp c))
    rw [hsame]
    obtain ⟨hwaiting, hall⟩ := ht.gained_handle hknows c hx
    exact ⟨hwaiting, fun f hf => ⟨c, rfl, hall f hf⟩⟩

/-- Ann reports that her camera is on, and claims to be Eve.  Bob has no room for the report and is
taken down, and so Eve hears of Bob. -/
theorem eve_hears_of_bob :
    let text := "\x7b\"type\":\"voice.media_state\",\"data\":\x7b\"channel_id\":\"hall\"," ++
      "\"user_id\":\"eve\",\"cam_enabled\":true\x7d\x7d"
    let h := run (new ⟨2, 10⟩) [.connect "ann", .connect "bob", .connect "eve",
      .enterRoom 0 "hall", .enterRoom 1 "hall", .send 1 "a", .send 1 "b"]
    let h' := (h.perform (.handleText 0 text)).1
    gained h h' ⟨2, .fresh 2, "eve"⟩ = [leftFrame "hall" "bob"] ∧
      ∃ d, d.user = "bob" ∧ h.Ousted h' d ∧ h'.rooms.contains "hall" d.id = false := by
  intro text h h'
  have hgained : gained h h' ⟨2, .fresh 2, "eve"⟩ = [leftFrame "hall" "bob"] := by decide +kernel
  have hdecode : Command.decode text = .ok (.mediaState ⟨"hall", true, false⟩) := by decide +kernel
  have hann : h.peer? 0 = some ⟨0, .fresh 0, "ann"⟩ := by decide +kernel
  have heve : h.Knows ⟨2, .fresh 2, "eve"⟩ := by decide +kernel
  have hmem : leftFrame "hall" "bob" ∈ gained h h' ⟨2, .fresh 2, "eve"⟩ :=
    hgained ▸ List.mem_singleton_self _
  refine ⟨hgained, ?_⟩
  obtain ⟨c, hc, hsaid⟩ := (nobody_speaks_for_others ⟨2, 10⟩ _ text hann _ heve).2 _ hmem
  obtain rfl := Except.ok.inj (hdecode.symm.trans hc)
  rcases hsaid with hown | ⟨d, channel, hleft, hd, _, hout⟩
  · cases hown
  · obtain ⟨rfl, huser⟩ := leftFrame_inj.mp hleft
    exact ⟨d, huser.symm, hd, hout⟩

end ChatHub.Hub
