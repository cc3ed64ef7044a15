import ChatHub.Config.Environment
import ChatHub.Proofs.Config.Numeral
/-!
What a configuration has of a text that a variable of the process gives.  The text is taken for a
truth value or a number where it can be, and then written as one; so it may be given back in another
spelling, and different texts may come to the same.
-/

namespace ChatHub

namespace Setting

open Decimal (IsNumeral integer?)

/-- The word for a truth value. -/
def truthWord (b : Bool) : String := if b then "true" else "false"

/-- A text that is taken for what it is. -/
def IsWording (v : String) : Prop :=
  (∀ b, Text.lowerCase v ≠ truthWord b) ∧ ¬ IsNumeral v.toList

/-- What a variable with the text is read as. -/
inductive ReadAs (v : String) : Setting → Prop
  | truth {b : Bool} (htruth : Text.lowerCase v = truthWord b) : ReadAs v (.bool b)
  | whole {n : Int} (hwhole : integer? v.toList = some n) : ReadAs v (.integer n)
  | number {x : Decimal.Value} (hwhole : integer? v.toList = none)
      (hnumber : Decimal.Value.ofText? v.toList = some x) : ReadAs v (.number x)
  | wording (hwording : IsWording v) : ReadAs v (.text v)

/-- What a text comes to as a setting where a text is needed. -/
def shown (v : String) : String := (ofVariable v).text?.getD ""

/-- A text that is given back as it is. -/
inductive Verbatim : String → Prop
  | wording {v : String} (hwording : IsWording v) : Verbatim v
  | truth (b : Bool) : Verbatim (truthWord b)
  | whole {n : Int} (hleast : -(UInt64.size / 2 : Nat) ≤ n)
      (hgreatest : n < (UInt64.size / 2 : Nat)) : Verbatim (String.ofList (writeInteger n))
  | number {v : String} {x : Decimal.Value} (hread : ReadAs v (.number x))
      (hshortest : v = String.ofList (layout.write Decimal.Binary.shortest x)) : Verbatim v

section Read

variable {v w : String} {s : Setting}

theorem ofVariable_truthWord {b : Bool} (htruth : Text.lowerCase v = truthWord b) :
    ofVariable v = .bool b := by
  rw [ofVariable, htruth]
  cases b with
  | true => rfl
  | false => rfl

theorem ofVariable_of_ne (htruth : ∀ b, Text.lowerCase v ≠ truthWord b) :
    ofVariable v =
      match integer? v.toList with
      | some n => .integer n
      | none =>
        match Decimal.Value.ofText? v.toList with
        | some x => .number x
        | none => .text v := by
  rw [ofVariable]
  split
  next heq => exact absurd heq (htruth true)
  next heq => exact absurd heq (htruth false)
  next => rfl

/-- No word for a truth value begins as a numeral does. -/
theorem ne_truthWord_of_isNumeral (h : IsNumeral v.toList) (b : Bool) :
    Text.lowerCase v ≠ truthWord b := by
  obtain ⟨c, hc, hkind⟩ := h.head
  intro heq
  have hhead : (truthWord b).toList.head? = some (Text.lowerChar c) := by
    rw [← heq, Text.lowerCase, String.toList_ofList, List.head?_map, hc, Option.map_some]
  have hletter : Text.lowerChar c = 't' ∨ Text.lowerChar c = 'f' := by
    cases b with
    | true => exact Or.inl (Option.some.inj hhead).symm
    | false => exact Or.inr (Option.some.inj hhead).symm
  rcases hkind with rfl | rfl | hdigit | rfl | hi | hn
  · exact absurd hletter (by decide)
  · exact absurd hletter (by decide)
  · rw [Decimal.lowerChar_of_isDigit hdigit] at hletter
    rcases hletter with rfl | rfl
    · exact absurd hdigit (by decide)
    · exact absurd hdigit (by decide)
  · exact absurd hletter (by decide)
  · rw [hi] at hletter
    exact absurd hletter (by decide)
  · rw [hn] at hletter
    exact absurd hletter (by decide)

theorem readAs_iff : ReadAs v s ↔ ofVariable v = s := by
  constructor
  · intro h
    cases h with
    | truth htruth => exact ofVariable_truthWord htruth
    | whole hwhole =>
      have hnumeral := Decimal.isNumeral_of_integer? hwhole
      rw [ofVariable_of_ne (ne_truthWord_of_isNumeral hnumeral), hwhole]
    | number hwhole hnumber =>
      have hnumeral := Decimal.ofText?_isSome_iff.mp (Option.isSome_of_eq_some hnumber)
      rw [ofVariable_of_ne (ne_truthWord_of_isNumeral hnumeral), hwhole, hnumber]
    | wording hwording =>
      have hnumber : Decimal.Value.ofText? v.toList = none := by
        rw [← Option.not_isSome_iff_eq_none, Decimal.ofText?_isSome_iff]
        exact hwording.2
      have hwhole : integer? v.toList = none := by
        rw [Option.eq_none_iff_forall_ne_some]
        exact fun n hn => hwording.2 (Decimal.isNumeral_of_integer? hn)
      rw [ofVariable_of_ne hwording.1, hwhole, hnumber]
  · rintro rfl
    by_cases htruth : ∃ b, Text.lowerCase v = truthWord b
    · obtain ⟨b, hb⟩ := htruth
      rw [ofVariable_truthWord hb]
      exact .truth hb
    · have hne := not_exists.mp htruth
      rw [ofVariable_of_ne hne]
      split
      next n hwhole => exact .whole hwhole
      next hwhole =>
        split
        next x hx => exact .number hwhole hx
        next hnone =>
          refine .wording ⟨hne, ?_⟩
          rw [← Decimal.ofText?_isSome_iff, hnone]
          exact Bool.false_ne_true

theorem ReadAs.shown_eq (h : ReadAs v s) : s.text? = some (shown v) := by
  rw [shown, readAs_iff.mp h]
  cases h with
  | truth | whole | number | wording => rfl

theorem text?_ofVariable (v : String) : (ofVariable v).text? = some (shown v) :=
  (readAs_iff.mpr rfl).shown_eq

/-- A text is given back as it is just if it is a wording, or the spelling that is written for the
truth value or the number that it is taken for. -/
theorem shown_eq_self_iff : shown v = v ↔ Verbatim v := by
  constructor
  · intro hsame
    have hread : ReadAs v (ofVariable v) := readAs_iff.mpr rfl
    have hshown := hsame ▸ hread.shown_eq
    generalize ofVariable v = s at hread hshown
    cases hread with
    | truth htruth =>
      rw [← Option.some.inj hshown]
      exact .truth _
    | whole hwhole =>
      obtain ⟨_, _, _, _, _, _, hleast, hgreatest⟩ := Decimal.integer?_eq_some_iff.mp hwhole
      rw [← Option.some.inj hshown]
      exact .whole hleast hgreatest
    | number hwhole hnumber => exact .number (.number hwhole hnumber) (Option.some.inj hshown).symm
    | wording hwording => exact .wording hwording
  · intro h
    have hback {s : Setting} {v : String} (hread : ReadAs v s) (htext : s.text? = some v) :
        shown v = v := Option.some.inj (hread.shown_eq.symm.trans htext)
    cases h with
    | wording hwording => exact hback (.wording hwording) rfl
    | truth b =>
      refine hback (.truth (b := b) ?_) rfl
      cases b with
      | true => rfl
      | false => rfl
    | whole hleast hgreatest =>
      refine hback (.whole ?_) rfl
      rw [String.toList_ofList]
      exact Decimal.integer?_writeInteger hleast hgreatest
    | number hread hshortest => exact hback hread (hshortest ▸ rfl)

/-- What is written for a truth value or a number is never a wording. -/
theorem ofVariable_eq_text (h : IsWording (shown v)) : ofVariable v = .text v := by
  have hread : ReadAs v (ofVariable v) := readAs_iff.mpr rfl
  have hshown := hread.shown_eq
  generalize ofVariable v = s at hread hshown ⊢
  cases hread with
  | truth htruth =>
    rw [← Option.some.inj hshown] at h
    rename_i b
    refine absurd ?_ (h.1 b)
    cases b with
    | true => rfl
    | false => rfl
  | whole hwhole =>
    obtain ⟨_, _, _, _, _, _, hleast, hgreatest⟩ := Decimal.integer?_eq_some_iff.mp hwhole
    rw [← Option.some.inj hshown, IsWording, String.toList_ofList] at h
    have hback := Decimal.integer?_writeInteger hleast hgreatest
    exact absurd (Decimal.isNumeral_of_integer? hback) h.2
  | number hwhole hnumber =>
    rw [← Option.some.inj hshown, IsWording, String.toList_ofList] at h
    exact absurd (Decimal.isNumeral_write _ _ _) h.2
  | wording hwording => rfl

/-- Numerals that are read alike come to the same. -/
theorem shown_congr (h : IsNumeral v.toList) (hwhole : integer? w.toList = integer? v.toList)
    (hnumber : Decimal.Value.ofText? w.toList = Decimal.Value.ofText? v.toList) :
    shown w = shown v := by
  have hboth {s : Setting} (hw : ReadAs w s) (hv : ReadAs v s) : shown w = shown v :=
    Option.some.inj (hw.shown_eq.symm.trans hv.shown_eq)
  cases hn : integer? v.toList with
  | some n => exact hboth (.whole (hwhole.trans hn)) (.whole hn)
  | none =>
    obtain ⟨x, hx⟩ := Option.isSome_iff_exists.mp (Decimal.ofText?_isSome_iff.mpr h)
    exact hboth (.number (hwhole.trans hn) (hnumber.trans hx)) (.number hn hx)

/-- Of two texts that come to the same, one at least is another. -/
theorem exists_ne_of_two {a b text : String} (hne : a ≠ b) (ha : shown a = text)
    (hb : shown b = text) : ∃ w, w ≠ v ∧ shown w = text := by
  by_cases hav : a = v
  · exact ⟨b, fun hbv => hne (hav.trans hbv.symm), hb⟩
  · exact ⟨a, hav, ha⟩

theorem exists_ne_of_truth {b : Bool} (htruth : Text.lowerCase v = truthWord b) :
    ∃ w, w ≠ v ∧ shown w = shown v := by
  have hshown := Option.some.inj (ReadAs.truth htruth).shown_eq
  rw [← hshown]
  cases b with
  | true => exact exists_ne_of_two (a := "true") (b := "TRUE") (by decide) (by decide) (by decide)
  | false =>
    exact exists_ne_of_two (a := "false") (b := "FALSE") (by decide) (by decide) (by decide)

/-- Words may be written in capitals, and in digits there may be one more zero. -/
theorem exists_ne_of_isNumeral (h : IsNumeral v.toList) : ∃ w, w ≠ v ∧ shown w = shown v := by
  obtain ⟨sign, hsign, body, hbody, heq⟩ := h
  cases hbody with
  | word hword =>
    have hwhole := Decimal.integer?_of_mem_words hsign hword
    have hnumber := Decimal.ofText?_of_mem_words hsign hword
    rw [← heq] at hwhole hnumber
    rcases hnumber with hnan | ⟨negative, hinfinite⟩
    · rw [← Option.some.inj (ReadAs.number hwhole hnan).shown_eq]
      exact exists_ne_of_two (a := "nan") (b := "NAN") (by decide) (by decide) (by decide)
    · rw [← Option.some.inj (ReadAs.number hwhole hinfinite).shown_eq]
      cases negative with
      | true =>
        exact exists_ne_of_two (a := "-inf") (b := "-INF") (by decide) (by decide) (by decide)
      | false =>
        exact exists_ne_of_two (a := "inf") (b := "INF") (by decide) (by decide) (by decide)
  | @number fixed exponent hfixed hexponent =>
    let longer := sign ++ '0' :: (fixed ++ exponent)
    have hnumeral : IsNumeral v.toList := ⟨sign, hsign, _, .number hfixed hexponent, heq⟩
    refine ⟨String.ofList longer, ?_, shown_congr hnumeral ?_ ?_⟩
    · intro hsame
      have hlength := congrArg List.length (heq ▸ congrArg String.toList hsame)
      simp [longer] at hlength
    · rw [String.toList_ofList, heq]
      exact Decimal.integer?_zero hsign (.number hfixed hexponent)
    · rw [String.toList_ofList, heq]
      exact Decimal.ofText?_zero hsign hfixed hexponent

/-- If a text is no wording, another one comes to the same. -/
theorem exists_ne_of_not_isWording (h : ¬ IsWording v) : ∃ w, w ≠ v ∧ shown w = shown v := by
  by_cases htruth : ∃ b, Text.lowerCase v = truthWord b
  · obtain ⟨b, hb⟩ := htruth
    exact exists_ne_of_truth hb
  · apply exists_ne_of_isNumeral
    by_contra hnumeral
    exact h ⟨not_exists.mp htruth, hnumeral⟩

/-- Wordings are the only texts that no other text is confused with. -/
theorem forall_shown_eq_iff : (∀ w, shown w = shown v → w = v) ↔ IsWording v := by
  constructor
  · intro halone
    by_contra hwording
    obtain ⟨w, hne, hw⟩ := exists_ne_of_not_isWording hwording
    exact hne (halone w hw)
  · intro hwording w hw
    rw [shown_eq_self_iff.mpr (.wording hwording)] at hw
    have htext := text?_ofVariable w
    rw [ofVariable_eq_text (hw ▸ hwording), hw] at htext
    exact Option.some.inj htext

end Read

end Setting

end ChatHub
