import ChatHub.Proofs.Hub.Accounting
/-!
What it means to be told that a user has left a room.  A connection of the user has been taken out
of it; the user has others there, for all one knows, unless that was the last.
-/

namespace ChatHub.Hub

/-- Nobody is told that a user has left a room unless a connection of that user has been taken out
of it, or the news was handed in.  If it was the user's only one there, the user has left. -/
theorem left_tells_of_departure (limits : Limits) {ops : List Operation} {op : Operation}
    (hops : ∀ o ∈ ops ++ [op], o.throughHub = true) {x : Peer} {channel : ChannelId}
    {user : UserId} (hx : (run (new limits) ops).Knows x)
    (htold : leftFrame channel user ∈
      gained (run (new limits) ops) (run (new limits) (ops ++ [op])) x)
    (hop : op.event? ≠ some (.left channel user)) :
    let h := run (new limits) ops
    let h' := run (new limits) (ops ++ [op])
    ∃ d : Peer, d.user = user ∧
      (channel, d) ∈ (h.rooms.occupancy ∪ h.entered op) \ h'.rooms.occupancy ∧
      ((∀ e : Peer, e.user = user → (channel, e) ∈ h.rooms.occupancy ∪ h.entered op → e = d) →
        (channel, user) ∉ h'.roster) := by
  intro h h'
  have hc : h.Consistent :=
    (consistent_new limits).run fun o ho => hops o (List.mem_append_left _ ho)
  have hlast : op.throughHub = true := hops op (List.mem_append_right ops List.mem_cons_self)
  have hc' : h'.Consistent := (consistent_new limits).run hops
  have hsettled := hc.settled_perform hlast
  rw [← (run_concat (new limits) ops op : h' = (h.perform op).1)] at hsettled
  rcases hsettled.told x _ hx htold with ⟨e, heq, hgiven⟩ | ⟨⟨c, d⟩, hlost, heq⟩
  · cases heq
    exact absurd (hgiven rfl) hop
  · obtain ⟨rfl, rfl⟩ := leftFrame_inj.mp heq
    refine ⟨d, rfl, hlost, fun honly hin => ?_⟩
    obtain ⟨m, hm, huser⟩ := (mem_roster hc'.toWellFormed).mp hin
    have hplace : (channel, m) ∈ h'.rooms.occupancy := hc'.rooms.mem_occupancy.mpr hm
    have hsame : m = d := honly m huser (hsettled.occupancy hplace)
    exact (Finset.mem_sdiff.mp hlost).2 (hsame ▸ hplace)

/-- Ann hangs up, and Bob is told. -/
theorem ann_has_left :
    leftFrame "hall" "ann" ∈ gained
        (run (new .standard) [.connect "ann", .connect "bob", .join 0 "hall"])
        (run (new .standard) [.connect "ann", .connect "bob", .join 0 "hall", .unregister 0])
        ⟨1, .fresh 1, "bob"⟩ ∧
      ("hall", "ann") ∉ (run (new .standard)
        [.connect "ann", .connect "bob", .join 0 "hall", .unregister 0]).roster := by
  have hops : ∀ o ∈ [Operation.connect "ann", .connect "bob", .join 0 "hall"] ++ [.unregister 0],
      o.throughHub = true := by decide
  have htold : leftFrame "hall" "ann" ∈ gained
      (run (new .standard) [.connect "ann", .connect "bob", .join 0 "hall"])
      (run (new .standard) ([.connect "ann", .connect "bob", .join 0 "hall"] ++ [.unregister 0]))
      ⟨1, .fresh 1, "bob"⟩ := by decide +kernel
  obtain ⟨d, _, hlost, honly⟩ :=
    left_tells_of_departure .standard hops (by decide +kernel) htold (by decide)
  refine ⟨htold, honly fun e _ he => ?_⟩
  have hplaces :
      (run (new .standard) [.connect "ann", .connect "bob", .join 0 "hall"]).rooms.occupancy ∪
        entered (run (new .standard) [.connect "ann", .connect "bob", .join 0 "hall"])
          (.unregister 0) = {("hall", ⟨0, .fresh 0, "ann"⟩)} := by decide +kernel
  have hd := (Finset.mem_sdiff.mp hlost).1
  rw [hplaces, Finset.mem_singleton] at hd he
  exact congrArg Prod.snd (he.trans hd.symm)

/-- Ann, who is in the hall twice, leaves it with one of her connections.  Everyone is told that she
has left, and she is still there. -/
theorem ann_has_left_and_stays :
    let h := run (new .standard)
      [.connect "ann", .connect "ann", .connect "bob", .join 0 "hall", .join 1 "hall"]
    let h' := (h.perform (.leave 0 "hall")).1
    leftFrame "hall" "ann" ∈ gained h h' ⟨2, .fresh 2, "bob"⟩ ∧
      h'.rooms.snapshot = [("hall", ["ann"])] := by
  decide +kernel

end ChatHub.Hub
