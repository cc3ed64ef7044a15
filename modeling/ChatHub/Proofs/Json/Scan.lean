import ChatHub.Proofs.Json.Grammar
/-!
The scan for the end of a value against the grammar.  It passes over every value, and over nothing
that is none; what it keeps of the open parts is all that it needs to know of the text before.
-/

namespace ChatHub.Json

/-- Goes on with a scan from where it has come to. -/
def resume : Option Progress → Option (List Char)
  | none => none
  | some (.done rest) => some rest
  | some (.value opened rest) => skipValue opened rest

theorem skipValue_eq_resume (opened : List Bracket) (cs : List Char) :
    skipValue opened cs = resume (advance opened cs) := by
  rw [skipValue]
  split
  next heq => rw [heq, resume]
  next heq => rw [heq, resume]
  next heq => rw [heq, resume]

section Scalar

variable {cs rest : List Char}

theorem ne_of_number_head {c d : Char} (hc : c = '-' ∨ c.isDigit = true) (hminus : d ≠ '-')
    (hdigit : d.isDigit = false) : c ≠ d := by
  rintro rfl
  rcases hc with rfl | hc
  · exact hminus rfl
  · rw [hc] at hdigit
    cases hdigit

theorem skipScalar_string {ps : List Piece} (hcs : Spells ps cs) (rest : List Char) :
    skipScalar ('"' :: (cs ++ ['"']) ++ rest) = some rest := by
  rw [List.cons_append, List.append_assoc, List.singleton_append, skipScalar,
    pieces?_append hcs, Option.map_some]

theorem skipScalar_number (hcs : IsNumber cs) (hrest : Ends rest) :
    skipScalar (cs ++ rest) = some rest := by
  have hskip := skipNumber_append hcs hrest
  obtain ⟨c, cs, rfl, hc⟩ := hcs.exists_head
  have hne {d : Char} (hminus : d ≠ '-') (hdigit : d.isDigit = false) : c ≠ d :=
    ne_of_number_head hc hminus hdigit
  rw [List.cons_append] at hskip ⊢
  unfold skipScalar
  split
  next heq => exact absurd (List.cons.inj heq).1 (hne (by decide) (by decide))
  next heq => exact absurd (List.cons.inj heq).1 (hne (by decide) (by decide))
  next heq => exact absurd (List.cons.inj heq).1 (hne (by decide) (by decide))
  next heq => exact absurd (List.cons.inj heq).1 (hne (by decide) (by decide))
  next => exact hskip

theorem exists_of_skipScalar (h : skipScalar cs = some rest) :
    ∃ v, IsValue v ∧ cs = v ++ rest := by
  unfold skipScalar at h
  split at h
  next r =>
    obtain ⟨⟨ps, after⟩, hps, rfl⟩ := Option.map_eq_some_iff.mp h
    obtain ⟨body, hbody, rfl⟩ := exists_of_pieces? hps
    refine ⟨_, .string hbody, ?_⟩
    rw [List.cons_append, List.append_assoc, List.singleton_append]
  next => exact ⟨_, .null, eq_append_of_skipWord h⟩
  next => exact ⟨_, .bool true, eq_append_of_skipWord h⟩
  next => exact ⟨_, .bool false, eq_append_of_skipWord h⟩
  next =>
    obtain ⟨ds, hds, rfl⟩ := exists_of_skipNumber h
    exact ⟨ds, .number hds, rfl⟩

end Scalar

section Head

theorem Encloses.exists_head {α : Type} {item : α → List Char → Prop} {left right : Char}
    {as : List α} {cs : List Char} (hcs : Encloses item left right as cs) :
    ∃ cs', cs = left :: cs' := by
  cases hcs with
  | empty => exact ⟨_, rfl⟩
  | filled => exact ⟨_, rfl⟩

/-- A value starts with a character of its own, which closes nothing. -/
theorem IsValue.exists_head {cs : List Char} (hcs : IsValue cs) :
    ∃ c cs', cs = c :: cs' ∧ isBlank c = false ∧ c ≠ ']' ∧ c ≠ '}' := by
  cases hcs with
  | null => exact ⟨'n', _, rfl, by decide⟩
  | bool b =>
    cases b with
    | true => exact ⟨'t', _, rfl, by decide⟩
    | false => exact ⟨'f', _, rfl, by decide⟩
  | number hcs =>
    obtain ⟨c, cs', rfl, hc⟩ := hcs.exists_head
    have hne {d : Char} (hminus : d ≠ '-') (hdigit : d.isDigit = false) : c ≠ d :=
      ne_of_number_head hc hminus hdigit
    refine ⟨c, cs', rfl, ?_, hne (by decide) (by decide), hne (by decide) (by decide)⟩
    simp only [isBlank, Bool.or_eq_false_iff, beq_eq_false_iff_ne]
    exact ⟨⟨⟨hne (by decide) (by decide), hne (by decide) (by decide)⟩,
      hne (by decide) (by decide)⟩, hne (by decide) (by decide)⟩
  | string => exact ⟨'"', _, rfl, by decide⟩
  | array _ hcs =>
    obtain ⟨cs', rfl⟩ := hcs.exists_head
    exact ⟨'[', cs', rfl, by decide⟩
  | object _ hcs =>
    obtain ⟨cs', rfl⟩ := hcs.exists_head
    exact ⟨'{', cs', rfl, by decide⟩

theorem IsValue.skipBlanks_append {v : List Char} (hv : IsValue v) (rest : List Char) :
    skipBlanks (v ++ rest) = v ++ rest := by
  obtain ⟨c, v, rfl, hc, _⟩ := hv.exists_head
  exact skipBlanks_cons hc (v ++ rest)

/-- The first of several items is no closing bracket. -/
theorem Row.exists_item_head {items : List Raw} {cs : List Char} (hcs : Row Item items cs)
    (hitems : ∀ v ∈ items, IsValue v.text) (rest : List Char) :
    ∃ c cs', skipBlanks (cs ++ rest) = c :: cs' ∧ c ≠ ']' := by
  have hfirst {v : Raw} {ds : List Char} (hd : Item v ds) (hv : IsValue v.text)
      (after : List Char) : ∃ c cs', skipBlanks (ds ++ after) = c :: cs' ∧ c ≠ ']' := by
    obtain ⟨g, g', hg, _, rfl⟩ := hd
    obtain ⟨c, v', hv', hc, hne, _⟩ := hv.exists_head
    refine ⟨c, v' ++ (g' ++ after), ?_, hne⟩
    rw [List.append_assoc, List.append_assoc, skipBlanks_gap_append hg, hv']
    exact skipBlanks_cons hc _
  cases hcs with
  | last ha => exact hfirst ha (hitems _ List.mem_cons_self) rest
  | more ha _ =>
    rw [List.append_assoc]
    exact hfirst ha (hitems _ List.mem_cons_self) _

theorem Row.exists_member_head {members : List (List Piece × Raw)} {cs : List Char}
    (hcs : Row Member members cs) (rest : List Char) :
    ∃ cs', skipBlanks (cs ++ rest) = '"' :: cs' := by
  have hfirst {m : List Piece × Raw} {ds : List Char} (hd : Member m ds) (after : List Char) :
      ∃ cs', skipBlanks (ds ++ after) = '"' :: cs' := by
    obtain ⟨g, name, g', value, hg, _, _, _, rfl⟩ := hd
    refine ⟨name ++ '"' :: (g' ++ ':' :: value) ++ after, ?_⟩
    rw [List.append_assoc, skipBlanks_gap_append hg]
    exact skipBlanks_cons (by decide) _
  cases hcs with
  | last ha => exact hfirst ha rest
  | more ha _ =>
    rw [List.append_assoc]
    exact hfirst ha _

end Head

section Turns

variable (opened : List Bracket) {g cs rest : List Char}

theorem skipValue_gap_append (hg : IsGap g) (cs : List Char) :
    skipValue opened (g ++ cs) = skipValue opened cs := by
  rw [skipValue_eq_resume, skipValue_eq_resume, advance, advance, skipBlanks_gap_append hg]

theorem advance_scalar {c : Char} (hc : isBlank c = false) (harray : c ≠ '[')
    (hobject : c ≠ '{') (cs : List Char) :
    advance opened (c :: cs) = (skipScalar (c :: cs)).bind (closing opened) := by
  rw [advance, skipBlanks_cons hc]
  split
  next heq => exact absurd (List.cons.inj heq).1 harray
  next heq => exact absurd (List.cons.inj heq).1 hobject
  next => rfl

theorem advance_empty_array (hg : IsGap g) (rest : List Char) :
    advance opened ('[' :: (g ++ [']']) ++ rest) = closing opened rest := by
  have hclose : skipBlanks (g ++ ([']'] ++ rest)) = ']' :: rest := by
    rw [skipBlanks_gap_append hg]
    exact skipBlanks_cons (by decide) rest
  rw [List.cons_append, List.append_assoc, advance, skipBlanks_cons (by decide)]
  simp only [hclose]

theorem advance_empty_object (hg : IsGap g) (rest : List Char) :
    advance opened ('{' :: (g ++ ['}']) ++ rest) = closing opened rest := by
  have hclose : skipBlanks (g ++ (['}'] ++ rest)) = '}' :: rest := by
    rw [skipBlanks_gap_append hg]
    exact skipBlanks_cons (by decide) rest
  rw [List.cons_append, List.append_assoc, advance, skipBlanks_cons (by decide)]
  simp only [hclose]

theorem advance_array {c : Char} {cs' : List Char} (hcs : skipBlanks cs = c :: cs')
    (hc : c ≠ ']') : advance opened ('[' :: cs) = some (.value (.array :: opened) cs) := by
  rw [advance, skipBlanks_cons (by decide)]
  simp only [hcs]
  split
  next heq => exact absurd (List.cons.inj heq).1 hc
  next => rfl

theorem advance_object {cs' : List Char} (hcs : skipBlanks cs = '"' :: cs') :
    advance opened ('{' :: cs) =
      (takeName cs).map fun (_, value) => .value (.object :: opened) value := by
  rw [advance, skipBlanks_cons (by decide)]
  simp only [hcs]
  rfl

theorem closing_array_end (hg : IsGap g) (rest : List Char) :
    closing (.array :: opened) (g ++ ']' :: rest) = closing opened rest := by
  rw [closing, skipBlanks_gap_append hg, skipBlanks_cons (by decide)]
  rfl

theorem closing_array_next (hg : IsGap g) (rest : List Char) :
    closing (.array :: opened) (g ++ ',' :: rest) = some (.value (.array :: opened) rest) := by
  rw [closing, skipBlanks_gap_append hg, skipBlanks_cons (by decide)]
  rfl

theorem closing_object_end (hg : IsGap g) (rest : List Char) :
    closing (.object :: opened) (g ++ '}' :: rest) = closing opened rest := by
  rw [closing, skipBlanks_gap_append hg, skipBlanks_cons (by decide)]
  rfl

theorem closing_object_next (hg : IsGap g) (rest : List Char) :
    closing (.object :: opened) (g ++ ',' :: rest) =
      (takeName rest).map fun (_, value) => .value (.object :: opened) value := by
  rw [closing, skipBlanks_gap_append hg, skipBlanks_cons (by decide)]
  rfl

theorem resume_map_value (opened : List Bracket) (r : Option (List Piece × List Char)) :
    resume (r.map fun (_, value) => .value opened value) =
      r.bind fun m => skipValue opened m.2 := by
  cases r with
  | none => rfl
  | some m => rfl

theorem takeName_append {g' : List Char} {ps : List Piece} {name : List Char} (hg : IsGap g)
    (hname : Spells ps name) (hg' : IsGap g') (rest : List Char) :
    takeName (g ++ '"' :: (name ++ '"' :: (g' ++ ':' :: rest))) = some (ps, rest) := by
  rw [takeName, skipBlanks_gap_append hg, skipBlanks_cons (by decide)]
  simp only [pieces?_append hname, skipBlanks_gap_append hg']
  rw [skipBlanks_cons (by decide)]
  rfl

theorem exists_of_takeName {ps : List Piece} (h : takeName cs = some (ps, rest)) :
    ∃ g name g', IsGap g ∧ Spells ps name ∧ IsGap g' ∧
      cs = g ++ '"' :: (name ++ '"' :: (g' ++ ':' :: rest)) := by
  rw [takeName] at h
  obtain ⟨g, hg, hcs⟩ := exists_gap cs
  split at h
  next r hr =>
    rw [hr] at hcs
    split at h
    next qs after hqs =>
      obtain ⟨name, hname, rfl⟩ := exists_of_pieces? hqs
      obtain ⟨g', hg', hafter⟩ := exists_gap after
      split at h
      next value hvalue =>
        cases h
        rw [hvalue] at hafter
        exact ⟨g, name, g', hg, hname, hg', by rw [hcs, hafter]⟩
      next => cases h
    next => cases h
  next => cases h

end Turns

section Complete

variable {opened : List Bracket} {rest : List Char}

/-- The scan passes over this text and goes on behind it. -/
def Passes (cs : List Char) : Prop :=
  ∀ opened rest, Ends rest → skipValue opened (cs ++ rest) = resume (closing opened rest)

theorem Item.skipValue_append {v : Raw} {cs : List Char} (hcs : Item v cs)
    (hv : Passes v.text) (opened : List Bracket) {rest : List Char} (hrest : Ends rest) :
    ∃ g, IsGap g ∧ skipValue opened (cs ++ rest) = resume (closing opened (g ++ rest)) := by
  obtain ⟨g, g', hg, hg', rfl⟩ := hcs
  refine ⟨g', hg', ?_⟩
  rw [List.append_assoc, List.append_assoc, skipValue_gap_append opened hg]
  exact hv opened _ (ends_gap_append hg' hrest)

theorem Row.skipItems {items : List Raw} {cs : List Char} (hcs : Row Item items cs)
    (hitems : ∀ v ∈ items, Passes v.text) :
    skipValue (.array :: opened) (cs ++ ']' :: rest) = resume (closing opened rest) := by
  induction hcs with
  | last ha =>
    have hend : Ends (']' :: rest) := ends_cons (by simp) rest
    obtain ⟨g, hg, hskip⟩ :=
      ha.skipValue_append (hitems _ List.mem_cons_self) (.array :: opened) hend
    rw [hskip, closing_array_end opened hg]
  | @more v vs cs ds ha _ ih =>
    have hend : Ends (',' :: (ds ++ ']' :: rest)) := ends_cons (by simp) _
    obtain ⟨g, hg, hskip⟩ :=
      ha.skipValue_append (hitems _ List.mem_cons_self) (.array :: opened) hend
    rw [List.append_assoc, List.cons_append, hskip, closing_array_next opened hg]
    exact ih fun w hw => hitems w (List.mem_cons_of_mem v hw)

theorem Member.takeName_append {m : List Piece × Raw} {cs : List Char} (hcs : Member m cs)
    (rest : List Char) :
    ∃ value, Item m.2 value ∧ takeName (cs ++ rest) = some (m.1, value ++ rest) := by
  obtain ⟨g, name, g', value, hg, hname, hg', hvalue, rfl⟩ := hcs
  refine ⟨value, hvalue, ?_⟩
  have htake := Json.takeName_append hg hname hg' (value ++ rest)
  simpa only [List.append_assoc, List.cons_append] using htake

theorem Row.skipMembers {members : List (List Piece × Raw)} {cs : List Char}
    (hcs : Row Member members cs) (hmembers : ∀ m ∈ members, Passes m.2.text) :
    ((takeName (cs ++ '}' :: rest)).bind fun m => skipValue (.object :: opened) m.2) =
      resume (closing opened rest) := by
  induction hcs with
  | last ha =>
    obtain ⟨value, hvalue, htake⟩ := ha.takeName_append ('}' :: rest)
    have hend : Ends ('}' :: rest) := ends_cons (by simp) rest
    obtain ⟨g, hg, hskip⟩ :=
      hvalue.skipValue_append (hmembers _ List.mem_cons_self) (.object :: opened) hend
    rw [htake, Option.bind_some, hskip, closing_object_end opened hg]
  | @more m ms cs ds ha _ ih =>
    obtain ⟨value, hvalue, htake⟩ := ha.takeName_append (',' :: (ds ++ '}' :: rest))
    have hend : Ends (',' :: (ds ++ '}' :: rest)) := ends_cons (by simp) _
    obtain ⟨g, hg, hskip⟩ :=
      hvalue.skipValue_append (hmembers _ List.mem_cons_self) (.object :: opened) hend
    rw [List.append_assoc, List.cons_append, htake, Option.bind_some, hskip,
      closing_object_next opened hg, resume_map_value]
    exact ih fun w hw => hmembers w (List.mem_cons_of_mem m hw)

/-- Every value is passed over. -/
theorem IsValue.passes {cs : List Char} (hcs : IsValue cs) : Passes cs := by
  have hscalar {c : Char} {cs rest : List Char} (hc : isBlank c = false) (harray : c ≠ '[')
      (hobject : c ≠ '{') (hskip : skipScalar (c :: cs) = some rest) (opened : List Bracket) :
      skipValue opened (c :: cs) = resume (closing opened rest) := by
    rw [skipValue_eq_resume, advance_scalar opened hc harray hobject, hskip, Option.bind_some]
  induction hcs with
  | null =>
    intro opened rest _
    have hskip : skipScalar (Json.null ++ rest) = some rest := skipWord_append Json.null rest
    exact hscalar (by decide) (by decide) (by decide) hskip opened
  | bool b =>
    intro opened rest _
    cases b with
    | true =>
      have hskip : skipScalar (Json.bool true ++ rest) = some rest :=
        skipWord_append (Json.bool true) rest
      exact hscalar (by decide) (by decide) (by decide) hskip opened
    | false =>
      have hskip : skipScalar (Json.bool false ++ rest) = some rest :=
        skipWord_append (Json.bool false) rest
      exact hscalar (by decide) (by decide) (by decide) hskip opened
  | number hcs =>
    intro opened rest hrest
    have hskip := skipScalar_number hcs hrest
    obtain ⟨c, cs, rfl, hblank, _⟩ := (IsValue.number hcs).exists_head
    obtain ⟨d, ds, heq, hd⟩ := hcs.exists_head
    obtain ⟨rfl, rfl⟩ := List.cons.inj heq
    exact hscalar hblank (ne_of_number_head hd (by decide) (by decide))
      (ne_of_number_head hd (by decide) (by decide)) hskip opened
  | string hcs =>
    exact fun opened rest _ => hscalar (by decide) (by decide) (by decide)
      (skipScalar_string hcs rest) opened
  | array hitems hcs ih =>
    intro opened rest _
    cases hcs with
    | empty hg => rw [skipValue_eq_resume, advance_empty_array opened hg]
    | filled hrow =>
      obtain ⟨c, cs', hhead, hc⟩ := hrow.exists_item_head hitems (']' :: rest)
      rw [List.cons_append, List.append_assoc, List.singleton_append, skipValue_eq_resume,
        advance_array opened hhead hc]
      exact hrow.skipItems ih
  | object _ hcs ih =>
    intro opened rest _
    cases hcs with
    | empty hg => rw [skipValue_eq_resume, advance_empty_object opened hg]
    | filled hrow =>
      obtain ⟨cs', hhead⟩ := hrow.exists_member_head ('}' :: rest)
      rw [List.cons_append, List.append_assoc, List.singleton_append, skipValue_eq_resume,
        advance_object opened hhead, resume_map_value]
      exact hrow.skipMembers ih

end Complete

section Yield

/-- If the scan gets to an end, it has passed over a value first. -/
def YieldsValue (cs : List Char) : Prop :=
  ∀ opened last, skipValue opened cs = some last → ∃ g v rest, IsGap g ∧ IsValue v ∧
    cs = g ++ (v ++ rest) ∧ resume (closing opened rest) = some last

theorem exists_of_closing_array {opened : List Bracket} {cs last : List Char}
    (h : resume (closing (.array :: opened) cs) = some last) :
    ∃ g rest, IsGap g ∧
      (cs = g ++ ']' :: rest ∧ resume (closing opened rest) = some last ∨
        cs = g ++ ',' :: rest ∧ skipValue (.array :: opened) rest = some last) := by
  obtain ⟨g, hg, hcs⟩ := exists_gap cs
  rw [closing] at h
  split at h
  next rest hrest =>
    rw [hrest] at hcs
    exact ⟨g, rest, hg, Or.inl ⟨hcs, h⟩⟩
  next rest hrest =>
    rw [hrest] at hcs
    exact ⟨g, rest, hg, Or.inr ⟨hcs, h⟩⟩
  next => cases h

theorem exists_of_closing_object {opened : List Bracket} {cs last : List Char}
    (h : resume (closing (.object :: opened) cs) = some last) :
    ∃ g rest, IsGap g ∧
      (cs = g ++ '}' :: rest ∧ resume (closing opened rest) = some last ∨
        cs = g ++ ',' :: rest ∧
          ((takeName rest).bind fun m => skipValue (.object :: opened) m.2) = some last) := by
  obtain ⟨g, hg, hcs⟩ := exists_gap cs
  rw [closing] at h
  split at h
  next rest hrest =>
    rw [hrest] at hcs
    exact ⟨g, rest, hg, Or.inl ⟨hcs, h⟩⟩
  next rest hrest =>
    rw [hrest] at hcs
    rw [resume_map_value] at h
    exact ⟨g, rest, hg, Or.inr ⟨hcs, h⟩⟩
  next => cases h

/-- Inside an array the scan passes over items up to the bracket that closes it. -/
theorem exists_items {n : Nat} (hyields : ∀ cs : List Char, cs.length < n → YieldsValue cs)
    {opened : List Bracket} {cs last : List Char} (hlength : cs.length < n)
    (h : skipValue (.array :: opened) cs = some last) :
    ∃ items inner rest, (∀ v ∈ items, IsValue v.text) ∧ Row Item items inner ∧
      cs = inner ++ ']' :: rest ∧ resume (closing opened rest) = some last := by
  obtain ⟨g, v, rest, hg, hv, rfl, hclosing⟩ := hyields cs hlength _ _ h
  obtain ⟨g', rest', hg', hcase⟩ := exists_of_closing_array hclosing
  have hitem : Item ⟨v⟩ (g ++ (v ++ g')) := ⟨g, g', hg, hg', rfl⟩
  rcases hcase with ⟨rfl, hlast⟩ | ⟨rfl, hnext⟩
  · refine ⟨[⟨v⟩], _, rest', ?_, .last hitem, ?_, hlast⟩
    · exact fun w hw => List.mem_singleton.mp hw ▸ hv
    · simp only [List.append_assoc]
  · have hshorter : rest'.length < (g ++ (v ++ (g' ++ ',' :: rest'))).length := by
      simp only [List.length_append, List.length_cons]
      omega
    obtain ⟨items, inner, after, hitems, hrow, rfl, hlast⟩ :=
      exists_items hyields (hshorter.trans hlength) hnext
    refine ⟨⟨v⟩ :: items, _, after, ?_, .more hitem hrow, ?_, hlast⟩
    · intro w hw
      rcases List.mem_cons.mp hw with rfl | hw
      · exact hv
      · exact hitems w hw
    · simp only [List.append_assoc, List.cons_append]
termination_by cs.length

/-- Inside an object it passes over members up to the brace that closes it. -/
theorem exists_members {n : Nat} (hyields : ∀ cs : List Char, cs.length < n → YieldsValue cs)
    {opened : List Bracket} {cs last : List Char} (hlength : cs.length < n)
    (h : ((takeName cs).bind fun m => skipValue (.object :: opened) m.2) = some last) :
    ∃ members inner rest, (∀ m ∈ members, IsValue m.2.text) ∧ Row Member members inner ∧
      cs = inner ++ '}' :: rest ∧ resume (closing opened rest) = some last := by
  obtain ⟨⟨ps, value⟩, htake, hskip⟩ := Option.bind_eq_some_iff.mp h
  have hvalue := (takeName_length htake).trans hlength
  obtain ⟨g₀, name, g₁, hg₀, hname, hg₁, rfl⟩ := exists_of_takeName htake
  obtain ⟨g, v, rest, hg, hv, rfl, hclosing⟩ := hyields value hvalue _ _ hskip
  obtain ⟨g', rest', hg', hcase⟩ := exists_of_closing_object hclosing
  have hmember : Member (ps, ⟨v⟩)
      (g₀ ++ '"' :: (name ++ '"' :: (g₁ ++ ':' :: (g ++ (v ++ g'))))) :=
    ⟨g₀, name, g₁, _, hg₀, hname, hg₁, ⟨g, g', hg, hg', rfl⟩, rfl⟩
  rcases hcase with ⟨rfl, hlast⟩ | ⟨rfl, hnext⟩
  · refine ⟨[(ps, ⟨v⟩)], _, rest', ?_, .last hmember, ?_, hlast⟩
    · exact fun w hw => List.mem_singleton.mp hw ▸ hv
    · simp only [List.append_assoc, List.cons_append]
  · have hshorter : rest'.length < (g₀ ++ '"' :: (name ++ '"' :: (g₁ ++ ':' ::
        (g ++ (v ++ (g' ++ ',' :: rest')))))).length := by
      simp only [List.length_append, List.length_cons]
      omega
    obtain ⟨members, inner, after, hmembers, hrow, rfl, hlast⟩ :=
      exists_members hyields (hshorter.trans hlength) hnext
    refine ⟨(ps, ⟨v⟩) :: members, _, after, ?_, .more hmember hrow, ?_, hlast⟩
    · intro w hw
      rcases List.mem_cons.mp hw with rfl | hw
      · exact hv
      · exact hmembers w hw
    · simp only [List.append_assoc, List.cons_append]
termination_by cs.length

/-- Nothing but a value is passed over. -/
theorem yieldsValue (cs : List Char) : YieldsValue cs := by
  induction hn : cs.length using Nat.strong_induction_on generalizing cs with
  | _ n ih =>
    have hyields : ∀ ds : List Char, ds.length < n → YieldsValue ds :=
      fun ds hds => ih _ hds ds rfl
    intro opened last h
    obtain ⟨g, hg, hcs⟩ := exists_gap cs
    rw [hcs, skipValue_gap_append opened hg] at h
    have hlength : (skipBlanks cs).length ≤ n := hn ▸ skipBlanks_length_le cs
    -- what remains to be shown is about the text behind the gap
    suffices hvalue : ∃ v rest, IsValue v ∧ skipBlanks cs = v ++ rest ∧
        resume (closing opened rest) = some last by
      obtain ⟨v, rest, hv, hstart, hlast⟩ := hvalue
      exact ⟨g, v, rest, hg, hv, by rw [← hstart, ← hcs], hlast⟩
    rw [skipValue_eq_resume, advance] at h
    rw [skipBlanks_skipBlanks] at h
    generalize skipBlanks cs = start at h hlength
    split at h
    next inner =>
      have hinner : inner.length < n := hlength
      obtain ⟨g', hg', hstart⟩ := exists_gap inner
      split at h
      next rest hrest =>
        rw [hrest] at hstart
        refine ⟨_, rest, @IsValue.array [] _ (by simp) (.empty hg'), ?_, h⟩
        simp [hstart]
      next =>
        obtain ⟨items, row, rest, hitems, hrow, rfl, hlast⟩ := exists_items hyields hinner h
        refine ⟨_, rest, .array hitems (.filled hrow), ?_, hlast⟩
        simp
    next inner =>
      have hinner : inner.length < n := hlength
      obtain ⟨g', hg', hstart⟩ := exists_gap inner
      split at h
      next rest hrest =>
        rw [hrest] at hstart
        refine ⟨_, rest, @IsValue.object [] _ (by simp) (.empty hg'), ?_, h⟩
        simp [hstart]
      next =>
        rw [resume_map_value] at h
        obtain ⟨members, row, rest, hmembers, hrow, rfl, hlast⟩ :=
          exists_members hyields hinner h
        refine ⟨_, rest, .object hmembers (.filled hrow), ?_, hlast⟩
        simp
    next =>
      cases hskip : skipScalar start with
      | none =>
        rw [hskip] at h
        cases h
      | some rest =>
        rw [hskip] at h
        obtain ⟨v, hv, rfl⟩ := exists_of_skipScalar hskip
        exact ⟨v, rest, hv, rfl, h⟩

end Yield

end ChatHub.Json
