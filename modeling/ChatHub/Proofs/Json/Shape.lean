import ChatHub.Proofs.Json.Scan
/-!
One level of a value: the reader finds just what the grammar says is there.
-/

namespace ChatHub.Json

/-- The text is a value that shows this level. -/
inductive Shape.Describes : Shape → List Char → Prop where
  | null : Describes .null Json.null
  | bool (b : Bool) : Describes (.bool b) (Json.bool b)
  | number {cs : List Char} (hcs : IsNumber cs) : Describes (.number cs) cs
  | string {ps : List Piece} {cs : List Char} (hcs : Spells ps cs) :
      Describes (.string ps) ('"' :: (cs ++ ['"']))
  | array {items : List Raw} {cs : List Char} (hitems : ∀ v ∈ items, IsValue v.text)
      (hcs : Encloses Item '[' ']' items cs) : Describes (.array items) cs
  | object {members : List (List Piece × Raw)} {cs : List Char}
      (hmembers : ∀ m ∈ members, IsValue m.2.text)
      (hcs : Encloses Member '{' '}' members cs) : Describes (.object members) cs

theorem isValue_iff {cs : List Char} : IsValue cs ↔ ∃ s : Shape, s.Describes cs := by
  constructor
  · intro hcs
    cases hcs with
    | null => exact ⟨_, .null⟩
    | bool b => exact ⟨_, .bool b⟩
    | number hcs => exact ⟨_, .number hcs⟩
    | string hcs => exact ⟨_, .string hcs⟩
    | array hitems hcs => exact ⟨_, .array hitems hcs⟩
    | object hmembers hcs => exact ⟨_, .object hmembers hcs⟩
  · rintro ⟨s, hcs⟩
    cases hcs with
    | null => exact .null
    | bool b => exact .bool b
    | number hcs => exact .number hcs
    | string hcs => exact .string hcs
    | array hitems hcs => exact .array hitems hcs
    | object hmembers hcs => exact .object hmembers hcs

theorem Shape.Describes.isValue {s : Shape} {cs : List Char} (hcs : s.Describes cs) :
    IsValue cs :=
  isValue_iff.mpr ⟨s, hcs⟩

section Raw

variable {cs v rest after : List Char}

theorem takeRaw?_append {g : List Char} (hg : IsGap g) (hv : IsValue v) (hrest : Ends rest) :
    takeRaw? (g ++ (v ++ rest)) = some (⟨v⟩, rest) := by
  have hskip : skipValue [] (v ++ rest) = some rest := hv.passes [] rest hrest
  have hcut : (v ++ rest).take ((v ++ rest).length - rest.length) = v := by
    rw [List.length_append, Nat.add_sub_cancel, List.take_left]
  rw [takeRaw?, skipBlanks_gap_append hg, hv.skipBlanks_append]
  simp only [hskip, Option.map_some, hcut]

theorem exists_of_takeRaw? {r : Raw} (h : takeRaw? cs = some (r, rest)) :
    ∃ g, IsGap g ∧ IsValue r.text ∧ cs = g ++ (r.text ++ rest) := by
  obtain ⟨last, hskip, heq⟩ := Option.map_eq_some_iff.mp h
  obtain ⟨rfl, rfl⟩ := Prod.mk.inj heq
  obtain ⟨g, hg, hcs⟩ := exists_gap cs
  obtain ⟨g', v, after, hg', hv, hstart, hdone⟩ := yieldsValue _ _ _ hskip
  obtain rfl : after = last := Option.some.inj hdone
  -- the scan starts behind the gap, so there is none left to pass over
  have hvalue : skipBlanks cs = v ++ after := by
    rw [← skipBlanks_skipBlanks, hstart, skipBlanks_gap_append hg', hv.skipBlanks_append]
  have hcut : (v ++ after).take ((v ++ after).length - after.length) = v := by
    rw [List.length_append, Nat.add_sub_cancel, List.take_left]
  rw [hvalue] at hcs ⊢
  rw [hcut]
  exact ⟨g, hg, hv, hcs⟩

theorem Item.takeRaw?_append {r : Raw} (hcs : Item r cs) (hr : IsValue r.text)
    (hrest : Ends rest) :
    ∃ g, IsGap g ∧ takeRaw? (cs ++ rest) = some (r, g ++ rest) := by
  obtain ⟨g, g', hg, hg', rfl⟩ := hcs
  refine ⟨g', hg', ?_⟩
  rw [List.append_assoc, List.append_assoc]
  exact Json.takeRaw?_append hg hr (ends_gap_append hg' hrest)

theorem exists_item {r : Raw} {c : Char} (h : takeRaw? cs = some (r, after))
    (hafter : skipBlanks after = c :: rest) :
    ∃ inner, IsValue r.text ∧ Item r inner ∧ cs = inner ++ c :: rest := by
  obtain ⟨g, hg, hr, rfl⟩ := exists_of_takeRaw? h
  obtain ⟨g', hg', heq⟩ := exists_gap after
  refine ⟨g ++ (r.text ++ g'), hr, ⟨g, g', hg, hg', rfl⟩, ?_⟩
  rw [← hafter, List.append_assoc, List.append_assoc, ← heq]

end Raw

section Items

variable {items : List Raw} {cs after rest : List Char} {v : Raw}

theorem takeItems_last (hv : takeRaw? cs = some (v, after))
    (hafter : skipBlanks after = ']' :: rest) : takeItems cs = some ([v], rest) := by
  unfold takeItems
  split <;> grind

theorem takeItems_more (hv : takeRaw? cs = some (v, after))
    (hafter : skipBlanks after = ',' :: rest) :
    takeItems cs = (takeItems rest).map fun (vs, last) => (v :: vs, last) := by
  rw [takeItems.eq_def]
  split <;> grind

theorem Row.takeItems_append (hcs : Row Item items cs) (hitems : ∀ v ∈ items, IsValue v.text)
    (rest : List Char) : takeItems (cs ++ ']' :: rest) = some (items, rest) := by
  induction hcs with
  | last ha =>
    obtain ⟨g, hg, htake⟩ :=
      ha.takeRaw?_append (hitems _ List.mem_cons_self) (ends_cons (c := ']') (by simp) rest)
    refine takeItems_last htake ?_
    rw [skipBlanks_gap_append hg, skipBlanks_cons (by decide)]
  | @more v vs cs ds ha _ ih =>
    have hend : Ends (',' :: (ds ++ ']' :: rest)) := ends_cons (by simp) _
    obtain ⟨g, hg, htake⟩ := ha.takeRaw?_append (hitems _ List.mem_cons_self) hend
    have hafter : skipBlanks (g ++ ',' :: (ds ++ ']' :: rest)) = ',' :: (ds ++ ']' :: rest) := by
      rw [skipBlanks_gap_append hg, skipBlanks_cons (by decide)]
    rw [List.append_assoc, List.cons_append, takeItems_more htake hafter,
      ih fun w hw => hitems w (List.mem_cons_of_mem v hw), Option.map_some]

theorem exists_of_takeItems (h : takeItems cs = some (items, rest)) :
    ∃ inner, (∀ v ∈ items, IsValue v.text) ∧ Row Item items inner ∧ cs = inner ++ ']' :: rest := by
  fun_induction takeItems cs generalizing items with
  | case1 | case4 => cases h
  | case2 cs v after hv r hr =>
    cases h
    obtain ⟨inner, hvalue, hitem, rfl⟩ := exists_item hv hr
    exact ⟨inner, fun w hw => List.mem_singleton.mp hw ▸ hvalue, .last hitem, rfl⟩
  | case3 cs v after hv r hr ih =>
    obtain ⟨⟨vs, last⟩, hvs, heq⟩ := Option.map_eq_some_iff.mp h
    cases heq
    obtain ⟨inner, hvalue, hitem, rfl⟩ := exists_item hv hr
    obtain ⟨inner', hvalues, hrow, rfl⟩ := ih hvs
    refine ⟨inner ++ ',' :: inner', List.forall_mem_cons.mpr ⟨hvalue, hvalues⟩,
      .more hitem hrow, ?_⟩
    simp only [List.append_assoc, List.cons_append]

end Items

section Members

variable {members : List (List Piece × Raw)} {name : List Piece} {v : Raw}
  {cs value after rest : List Char}

theorem takeMembers_last (hname : takeName cs = some (name, value))
    (hv : takeRaw? value = some (v, after)) (hafter : skipBlanks after = '}' :: rest) :
    takeMembers cs = some ([(name, v)], rest) := by
  unfold takeMembers
  split <;> grind

theorem takeMembers_more (hname : takeName cs = some (name, value))
    (hv : takeRaw? value = some (v, after)) (hafter : skipBlanks after = ',' :: rest) :
    takeMembers cs = (takeMembers rest).map fun (ms, last) => ((name, v) :: ms, last) := by
  rw [takeMembers.eq_def]
  split <;> grind

theorem Row.takeMembers_append (hcs : Row Member members cs)
    (hmembers : ∀ m ∈ members, IsValue m.2.text) (rest : List Char) :
    takeMembers (cs ++ '}' :: rest) = some (members, rest) := by
  induction hcs with
  | last ha =>
    obtain ⟨value, hvalue, hname⟩ := ha.takeName_append ('}' :: rest)
    have hend : Ends ('}' :: rest) := ends_cons (by simp) rest
    obtain ⟨g, hg, htake⟩ := hvalue.takeRaw?_append (hmembers _ List.mem_cons_self) hend
    refine takeMembers_last hname htake ?_
    rw [skipBlanks_gap_append hg, skipBlanks_cons (by decide)]
  | @more m ms cs ds ha _ ih =>
    obtain ⟨value, hvalue, hname⟩ := ha.takeName_append (',' :: (ds ++ '}' :: rest))
    have hend : Ends (',' :: (ds ++ '}' :: rest)) := ends_cons (by simp) _
    obtain ⟨g, hg, htake⟩ := hvalue.takeRaw?_append (hmembers _ List.mem_cons_self) hend
    have hafter : skipBlanks (g ++ ',' :: (ds ++ '}' :: rest)) = ',' :: (ds ++ '}' :: rest) := by
      rw [skipBlanks_gap_append hg, skipBlanks_cons (by decide)]
    rw [List.append_assoc, List.cons_append, takeMembers_more hname htake hafter,
      ih fun w hw => hmembers w (List.mem_cons_of_mem m hw), Option.map_some]

theorem exists_member {c : Char} (hname : takeName cs = some (name, value))
    (hv : takeRaw? value = some (v, after)) (hafter : skipBlanks after = c :: rest) :
    ∃ inner, IsValue v.text ∧ Member (name, v) inner ∧ cs = inner ++ c :: rest := by
  obtain ⟨g, body, g', hg, hbody, hg', rfl⟩ := exists_of_takeName hname
  obtain ⟨inner, hvalue, hitem, rfl⟩ := exists_item hv hafter
  refine ⟨_, hvalue, ⟨g, body, g', inner, hg, hbody, hg', hitem, rfl⟩, ?_⟩
  simp only [List.append_assoc, List.cons_append]

theorem exists_of_takeMembers (h : takeMembers cs = some (members, rest)) :
    ∃ inner, (∀ m ∈ members, IsValue m.2.text) ∧ Row Member members inner ∧
      cs = inner ++ '}' :: rest := by
  fun_induction takeMembers cs generalizing members with
  | case1 | case2 | case5 => cases h
  | case3 cs name value hname v after hv r hr =>
    cases h
    obtain ⟨inner, hvalue, hmember, rfl⟩ := exists_member hname hv hr
    exact ⟨inner, fun w hw => List.mem_singleton.mp hw ▸ hvalue, .last hmember, rfl⟩
  | case4 cs name value hname v after hv r hr ih =>
    obtain ⟨⟨ms, last⟩, hms, heq⟩ := Option.map_eq_some_iff.mp h
    cases heq
    obtain ⟨inner, hvalue, hmember, rfl⟩ := exists_member hname hv hr
    obtain ⟨inner', hvalues, hrow, rfl⟩ := ih hms
    refine ⟨inner ++ ',' :: inner', List.forall_mem_cons.mpr ⟨hvalue, hvalues⟩,
      .more hmember hrow, ?_⟩
    simp only [List.append_assoc, List.cons_append]

end Members

section Shape

variable {s : Shape} {cs rest : List Char}

theorem takeShape_number (hcs : IsNumber cs) (hrest : Ends rest) :
    takeShape (cs ++ rest) = some (.number cs, rest) := by
  have hskip := skipNumber_append hcs hrest
  have hcut : (cs ++ rest).take ((cs ++ rest).length - rest.length) = cs := by
    rw [List.length_append, Nat.add_sub_cancel, List.take_left]
  obtain ⟨c, cs, rfl, hc⟩ := hcs.exists_head
  have hne {d : Char} (hminus : d ≠ '-') (hdigit : d.isDigit = false) : c ≠ d :=
    ne_of_number_head hc hminus hdigit
  rw [List.cons_append] at hskip hcut ⊢
  unfold takeShape
  split
  next heq => exact absurd (List.cons.inj heq).1 (hne (by decide) (by decide))
  next heq => exact absurd (List.cons.inj heq).1 (hne (by decide) (by decide))
  next heq => exact absurd (List.cons.inj heq).1 (hne (by decide) (by decide))
  next heq => exact absurd (List.cons.inj heq).1 (hne (by decide) (by decide))
  next heq => exact absurd (List.cons.inj heq).1 (hne (by decide) (by decide))
  next heq => exact absurd (List.cons.inj heq).1 (hne (by decide) (by decide))
  next => rw [hskip, Option.map_some, hcut]

theorem Shape.Describes.takeShape_append (hcs : s.Describes cs) (hrest : Ends rest) :
    takeShape (cs ++ rest) = some (s, rest) := by
  cases hcs with
  | null =>
    have hskip : skipWord Json.null (Json.null ++ rest) = some rest := skipWord_append _ rest
    exact congrArg (Option.map fun after => (Shape.null, after)) hskip
  | bool b =>
    cases b with
    | true =>
      have hskip : skipWord (Json.bool true) (Json.bool true ++ rest) = some rest :=
        skipWord_append _ rest
      exact congrArg (Option.map fun after => (Shape.bool true, after)) hskip
    | false =>
      have hskip : skipWord (Json.bool false) (Json.bool false ++ rest) = some rest :=
        skipWord_append _ rest
      exact congrArg (Option.map fun after => (Shape.bool false, after)) hskip
  | number hcs => exact takeShape_number hcs hrest
  | string hcs =>
    rw [List.cons_append, List.append_assoc, List.singleton_append, takeShape,
      pieces?_append hcs, Option.map_some]
  | array hitems hcs =>
    cases hcs with
    | @empty g hg =>
      have hclose : skipBlanks (g ++ ']' :: rest) = ']' :: rest := by
        rw [skipBlanks_gap_append hg, skipBlanks_cons (by decide)]
      rw [List.cons_append, List.append_assoc, List.singleton_append, takeShape]
      simp only [hclose]
    | filled hrow =>
      obtain ⟨c, cs', hhead, hc⟩ := hrow.exists_item_head hitems (']' :: rest)
      rw [List.cons_append, List.append_assoc, List.singleton_append, takeShape,
        hrow.takeItems_append hitems rest]
      simp only [hhead]
      split
      next heq => exact absurd (List.cons.inj heq).1 hc
      next => rfl
  | object hmembers hcs =>
    cases hcs with
    | @empty g hg =>
      have hclose : skipBlanks (g ++ '}' :: rest) = '}' :: rest := by
        rw [skipBlanks_gap_append hg, skipBlanks_cons (by decide)]
      rw [List.cons_append, List.append_assoc, List.singleton_append, takeShape]
      simp only [hclose]
    | filled hrow =>
      obtain ⟨cs', hhead⟩ := hrow.exists_member_head ('}' :: rest)
      rw [List.cons_append, List.append_assoc, List.singleton_append, takeShape,
        hrow.takeMembers_append hmembers rest]
      simp only [hhead]
      rfl

theorem exists_of_takeShape (h : takeShape cs = some (s, rest)) :
    ∃ v, s.Describes v ∧ cs = v ++ rest := by
  unfold takeShape at h
  split at h
  next r =>
    obtain ⟨⟨ps, after⟩, hps, heq⟩ := Option.map_eq_some_iff.mp h
    cases heq
    obtain ⟨body, hbody, rfl⟩ := exists_of_pieces? hps
    refine ⟨_, .string hbody, ?_⟩
    rw [List.cons_append, List.append_assoc, List.singleton_append]
  next r =>
    split at h
    next after hafter =>
      cases h
      obtain ⟨g, hg, hr⟩ := exists_gap r
      refine ⟨_, .array (by simp) (.empty hg), ?_⟩
      rw [List.cons_append, List.append_assoc, List.singleton_append, ← hafter, ← hr]
    next =>
      obtain ⟨⟨items, after⟩, hitems, heq⟩ := Option.map_eq_some_iff.mp h
      cases heq
      obtain ⟨inner, hvalues, hrow, rfl⟩ := exists_of_takeItems hitems
      refine ⟨_, .array hvalues (.filled hrow), ?_⟩
      rw [List.cons_append, List.append_assoc, List.singleton_append]
  next r =>
    split at h
    next after hafter =>
      cases h
      obtain ⟨g, hg, hr⟩ := exists_gap r
      refine ⟨_, .object (by simp) (.empty hg), ?_⟩
      rw [List.cons_append, List.append_assoc, List.singleton_append, ← hafter, ← hr]
    next =>
      obtain ⟨⟨members, after⟩, hmembers, heq⟩ := Option.map_eq_some_iff.mp h
      cases heq
      obtain ⟨inner, hvalues, hrow, rfl⟩ := exists_of_takeMembers hmembers
      refine ⟨_, .object hvalues (.filled hrow), ?_⟩
      rw [List.cons_append, List.append_assoc, List.singleton_append]
  next =>
    obtain ⟨after, hafter, heq⟩ := Option.map_eq_some_iff.mp h
    cases heq
    exact ⟨_, .null, eq_append_of_skipWord hafter⟩
  next =>
    obtain ⟨after, hafter, heq⟩ := Option.map_eq_some_iff.mp h
    cases heq
    exact ⟨_, .bool true, eq_append_of_skipWord hafter⟩
  next =>
    obtain ⟨after, hafter, heq⟩ := Option.map_eq_some_iff.mp h
    cases heq
    exact ⟨_, .bool false, eq_append_of_skipWord hafter⟩
  next =>
    obtain ⟨after, hafter, heq⟩ := Option.map_eq_some_iff.mp h
    cases heq
    obtain ⟨ds, hds, rfl⟩ := exists_of_skipNumber hafter
    refine ⟨ds, ?_, rfl⟩
    rw [List.length_append, Nat.add_sub_cancel, List.take_left]
    exact .number hds

/-- The text is, up to gaps around it, a value that shows this level. -/
def Shape.Of (s : Shape) (cs : List Char) : Prop :=
  ∃ g v g', IsGap g ∧ s.Describes v ∧ IsGap g' ∧ cs = g ++ (v ++ g')

theorem Shape.Describes.of (hcs : s.Describes cs) : s.Of cs :=
  ⟨[], cs, [], isGap_nil, hcs, isGap_nil, by simp⟩

/-- A text shows the level that is read from it, and no other. -/
theorem Shape.ofText?_eq_some : Shape.ofText? cs = some s ↔ s.Of cs := by
  constructor
  · intro h
    rw [Shape.ofText?] at h
    split at h
    next s' rest hshape =>
      obtain ⟨v, hv, hstart⟩ := exists_of_takeShape hshape
      obtain ⟨g, hg, hcs⟩ := exists_gap cs
      split at h
      next hblank =>
        cases h
        exact ⟨g, v, rest, hg, hv, isEmpty_skipBlanks.mp hblank, by rw [← hstart, ← hcs]⟩
      next => cases h
    next => cases h
  · rintro ⟨g, v, g', hg, hv, hg', rfl⟩
    rw [Shape.ofText?, skipBlanks_gap_append hg, hv.isValue.skipBlanks_append,
      hv.takeShape_append (ends_gap hg')]
    exact if_pos (isEmpty_skipBlanks.mpr hg')

theorem Shape.Of.unique {s' : Shape} (hs : s.Of cs) (hs' : s'.Of cs) : s = s' :=
  Option.some.inj ((Shape.ofText?_eq_some.mpr hs).symm.trans (Shape.ofText?_eq_some.mpr hs'))

/-- A value that shows a level up to gaps shows it as it stands. -/
theorem Shape.Of.describes (hs : s.Of cs) (hcs : IsValue cs) : s.Describes cs := by
  obtain ⟨s', hs'⟩ := isValue_iff.mp hcs
  exact hs.unique hs'.of ▸ hs'

end Shape

end ChatHub.Json
