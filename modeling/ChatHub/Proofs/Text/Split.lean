import ChatHub.Text.Blank
import ChatHub.Text.Split
/-!
Cutting a text is the inverse of putting it together: the parts are those without the character
between them, and there is one way to cut.
-/

namespace ChatHub.Text

section Split

variable {c : Char} {cs part : List Char} {parts : List (List Char)}

theorem splitAt_of_not_mem (hpart : c ∉ part) : splitAt c part = [part] := by
  induction part with
  | nil => rfl
  | cons d part ih =>
    have hne : c ≠ d := List.ne_of_not_mem_cons hpart
    have hrest : c ∉ part := List.not_mem_of_not_mem_cons hpart
    rw [splitAt, if_neg hne.symm, ih hrest]

theorem splitAt_append (hpart : c ∉ part) (cs : List Char) :
    splitAt c (part ++ c :: cs) = part :: splitAt c cs := by
  induction part with
  | nil => rw [List.nil_append, splitAt, if_pos rfl]
  | cons d part ih =>
    have hne : c ≠ d := List.ne_of_not_mem_cons hpart
    have hrest : c ∉ part := List.not_mem_of_not_mem_cons hpart
    rw [List.cons_append, splitAt, if_neg hne.symm, ih hrest]

theorem splitAt_ne_nil (c : Char) (cs : List Char) : splitAt c cs ≠ [] := by
  cases cs with
  | nil => exact List.cons_ne_nil _ _
  | cons d cs =>
    rw [splitAt]
    split
    · exact List.cons_ne_nil _ _
    · split <;> exact List.cons_ne_nil _ _

theorem joinWith_cons (hparts : parts ≠ []) :
    joinWith c (part :: parts) = part ++ c :: joinWith c parts := by
  cases parts with
  | nil => exact absurd rfl hparts
  | cons p ps => rfl

theorem of_mem_joinWith {d : Char} (hd : d ∈ joinWith c parts) :
    d = c ∨ ∃ part ∈ parts, d ∈ part := by
  induction parts with
  | nil => cases hd
  | cons part parts ih =>
    cases parts with
    | nil => exact Or.inr ⟨part, List.mem_cons_self, hd⟩
    | cons p ps =>
      rw [joinWith_cons (List.cons_ne_nil p ps), List.mem_append, List.mem_cons] at hd
      rcases hd with hin | rfl | hin
      · exact Or.inr ⟨part, List.mem_cons_self, hin⟩
      · exact Or.inl rfl
      · refine (ih hin).imp_right fun ⟨part', hpart', hin'⟩ => ?_
        exact ⟨part', List.mem_cons_of_mem part hpart', hin'⟩

theorem mem_joinWith_of_mem {d : Char} (hpart : part ∈ parts) (hd : d ∈ part) :
    d ∈ joinWith c parts := by
  induction parts with
  | nil => cases hpart
  | cons p parts ih =>
    cases parts with
    | nil => exact List.mem_singleton.mp hpart ▸ hd
    | cons q qs =>
      rw [joinWith_cons (List.cons_ne_nil q qs), List.mem_append, List.mem_cons]
      rcases List.mem_cons.mp hpart with rfl | hin
      · exact Or.inl hd
      · exact Or.inr (Or.inr (ih hin))

theorem splitAt_joinWith (hne : parts ≠ []) (hparts : ∀ p ∈ parts, c ∉ p) :
    splitAt c (joinWith c parts) = parts := by
  induction parts with
  | nil => exact absurd rfl hne
  | cons part parts ih =>
    obtain ⟨hpart, hrest⟩ := List.forall_mem_cons.mp hparts
    cases parts with
    | nil => exact splitAt_of_not_mem hpart
    | cons p ps =>
      rw [joinWith_cons (List.cons_ne_nil p ps), splitAt_append hpart,
        ih (List.cons_ne_nil p ps) hrest]

theorem joinWith_splitAt (c : Char) (cs : List Char) : joinWith c (splitAt c cs) = cs := by
  induction cs with
  | nil => rfl
  | cons d cs ih =>
    rw [splitAt]
    split
    next heq => rw [joinWith_cons (splitAt_ne_nil c cs), ih, heq, List.nil_append]
    next =>
      cases hsplit : splitAt c cs with
      | nil => exact absurd hsplit (splitAt_ne_nil c cs)
      | cons part parts =>
        rw [hsplit] at ih
        cases parts with
        | nil => rw [← ih]; rfl
        | cons p ps => rw [← ih]; rfl

theorem mem_of_mem_splitAt {d : Char} (hpart : part ∈ splitAt c cs) (hd : d ∈ part) : d ∈ cs := by
  rw [← joinWith_splitAt c cs]
  exact mem_joinWith_of_mem hpart hd

theorem not_mem_of_mem_splitAt (hpart : part ∈ splitAt c cs) : c ∉ part := by
  induction cs generalizing part with
  | nil =>
    rw [List.mem_singleton.mp hpart]
    exact List.not_mem_nil
  | cons d cs ih =>
    rw [splitAt] at hpart
    split at hpart
    next =>
      rcases List.mem_cons.mp hpart with rfl | hpart
      · exact List.not_mem_nil
      · exact ih hpart
    next hne =>
      cases hsplit : splitAt c cs with
      | nil => exact absurd hsplit (splitAt_ne_nil c cs)
      | cons first parts =>
        simp only [hsplit] at hpart ih
        rcases List.mem_cons.mp hpart with rfl | hpart
        · exact List.not_mem_cons_of_ne_of_not_mem (Ne.symm hne) (ih List.mem_cons_self)
        · exact ih (List.mem_cons_of_mem first hpart)

/-- The parts of a text are the only texts without the character that give it when they are put
together. -/
theorem splitAt_eq_iff :
    splitAt c cs = parts ↔ parts ≠ [] ∧ (∀ p ∈ parts, c ∉ p) ∧ cs = joinWith c parts := by
  constructor
  · rintro rfl
    exact ⟨splitAt_ne_nil c cs, fun p hp => not_mem_of_mem_splitAt hp, (joinWith_splitAt c cs).symm⟩
  · rintro ⟨hne, hparts, rfl⟩
    exact splitAt_joinWith hne hparts

end Split

section Cut

variable {c : Char} {before after cs : List Char}

theorem cutAt_of_not_mem (hcs : c ∉ cs) : cutAt c cs = (cs, none) := by
  induction cs with
  | nil => rfl
  | cons d cs ih =>
    have hne : c ≠ d := List.ne_of_not_mem_cons hcs
    rw [cutAt, if_neg hne.symm, ih (List.not_mem_of_not_mem_cons hcs)]

theorem append_cutAt (c : Char) (cs : List Char) :
    (cutAt c cs).1 ++ (cutAt c cs).2.elim [] (c :: ·) = cs := by
  induction cs with
  | nil => rfl
  | cons d cs ih =>
    rw [cutAt]
    split
    next heq => rw [heq]; rfl
    next => exact congrArg (d :: ·) ih

theorem cutAt_append (hbefore : c ∉ before) (after : List Char) :
    cutAt c (before ++ c :: after) = (before, some after) := by
  induction before with
  | nil => rw [List.nil_append, cutAt, if_pos rfl]
  | cons d before ih =>
    have hne : c ≠ d := List.ne_of_not_mem_cons hbefore
    rw [List.cons_append, cutAt, if_neg hne.symm, ih (List.not_mem_of_not_mem_cons hbefore)]

end Cut

section Trim

variable {p : Char → Bool} {left right cs : List Char}

theorem dropWhile_append_of_forall (hleft : ∀ c ∈ left, p c = true)
    (hhead : ∀ c ∈ cs.head?, p c = false) : (left ++ cs).dropWhile p = cs := by
  rw [List.dropWhile_append_of_pos hleft]
  cases cs with
  | nil => rfl
  | cons c cs => rw [List.dropWhile_cons_of_neg (by rw [hhead c rfl]; exact Bool.false_ne_true)]

/-- What a text loses by trimming is what stands around one that has nothing to lose. -/
theorem trimWith_append (hleft : ∀ c ∈ left, p c = true) (hright : ∀ c ∈ right, p c = true)
    (hcs : ∀ c ∈ cs, p c = false) : trimWith p (left ++ (cs ++ right)) = cs := by
  cases cs with
  | nil =>
    have hgone : (left ++ right ++ []).dropWhile p = [] := by
      refine dropWhile_append_of_forall (fun c hc => ?_) nofun
      exact (List.mem_append.mp hc).elim (hleft c) (hright c)
    rw [List.append_nil] at hgone
    rw [List.nil_append, trimWith, hgone]
    rfl
  | cons d ds =>
    have hstart : (left ++ (d :: ds ++ right)).dropWhile p = d :: ds ++ right :=
      dropWhile_append_of_forall hleft fun c hc => by
        rw [← Option.some.inj hc]
        exact hcs d List.mem_cons_self
    have hend : (right.reverse ++ (d :: ds).reverse).dropWhile p = (d :: ds).reverse := by
      refine dropWhile_append_of_forall (fun c hc => hright c (List.mem_reverse.mp hc)) ?_
      intro c hc
      exact hcs c (List.mem_reverse.mp (List.mem_of_mem_head? hc))
    rw [trimWith, hstart, List.reverse_append, hend, List.reverse_reverse]

end Trim

end ChatHub.Text
