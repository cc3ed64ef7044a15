import ChatHub.Preview
import Mathlib.Tactic.Common
/-!
Previews end between two characters.  The place of a byte is found by adding up the widths of
characters, so that what stands before it is itself a text, and that is all it takes to cut there.
-/

namespace ChatHub

/-- A character stands behind the bytes of all those before it. -/
theorem getElem?_charPlaces (p : String.Pos.Raw) (cs : List Char) (n : Nat) :
    (charPlaces p cs)[n]? =
      if n < cs.length then some (p + String.ofList (cs.take n)) else none := by
  induction cs generalizing p n with
  | nil => rfl
  | cons c cs ih =>
    cases n with
    | zero => simp [charPlaces, String.Pos.Raw.ext_iff]
    | succ n =>
      rw [charPlaces, List.getElem?_cons_succ, ih]
      simp only [List.length_cons, Nat.add_lt_add_iff_right, List.take_succ_cons]
      congr 2
      simp [String.Pos.Raw.ext_iff, String.ofList_cons, Nat.add_assoc]

example : charPlaces 0 ['a', 'é', '…', '😀', 'b'] = [⟨0⟩, ⟨1⟩, ⟨3⟩, ⟨6⟩, ⟨10⟩] := by decide

/-- A text can be cut between characters and nowhere else. -/
theorem isSome_before?_iff {content : String} {p : String.Pos.Raw} :
    (before? content p).isSome = true ↔ p.IsValid content := by
  simp [before?, String.pos?, String.Slice.pos?]

/-- Where one text ends and another begins, the first is cut off. -/
theorem before?_append (s t : String) : before? (s ++ t) s.rawEndPos = some s := by
  have hvalid : s.rawEndPos.IsValid (s ++ t) :=
    String.Pos.Raw.isValid_iff_exists_append.mpr ⟨s, t, rfl, rfl⟩
  obtain ⟨front, hfront⟩ := Option.isSome_iff_exists.mp (isSome_before?_iff.mpr hvalid)
  obtain ⟨q, hq, hcopy⟩ := Option.map_eq_some_iff.mp hfront
  have hplace : q.offset = s.rawEndPos := by
    simp only [String.pos?, String.Slice.pos?, Option.map_eq_some_iff] at hq
    obtain ⟨r, hr, rfl⟩ := hq
    split at hr
    next => rw [← Option.some.inj hr]; rfl
    next => cases hr
  have hsplits : q.Splits s t := ⟨rfl, hplace⟩
  rw [hfront, ← hcopy, q.splits.eq_left hsplits]

section Preview

variable (content : String)

/-- What a preview shows of a message at most. -/
def previewFront : String := String.ofList (content.toList.take previewLength)

theorem exists_eq_previewFront_append : ∃ rest, content = previewFront content ++ rest := by
  refine ⟨String.ofList (content.toList.drop previewLength), ?_⟩
  rw [previewFront, ← String.ofList_append, List.take_append_drop, String.ofList_toList]

theorem isValid_previewFront : (previewFront content).rawEndPos.IsValid content := by
  obtain ⟨rest, hrest⟩ := exists_eq_previewFront_append content
  exact String.Pos.Raw.isValid_iff_exists_append.mpr ⟨_, rest, hrest, rfl⟩

theorem before?_previewFront :
    before? content (previewFront content).rawEndPos = some (previewFront content) := by
  obtain ⟨rest, hrest⟩ := exists_eq_previewFront_append content
  have hcut := before?_append (previewFront content) rest
  rwa [← hrest] at hcut

theorem previewEnd?_eq : previewEnd? content =
    if content.length ≤ previewLength then none else some (previewFront content).rawEndPos := by
  have hbehind : (0 : String.Pos.Raw) + previewFront content =
      (previewFront content).rawEndPos :=
    String.Pos.Raw.ext (Nat.zero_add _)
  rw [previewEnd?, getElem?_charPlaces, String.length_toList, ← previewFront, hbehind]
  by_cases hshort : content.length ≤ previewLength
  · rw [if_neg (Nat.not_lt_of_le hshort), if_pos hshort]
  · rw [if_pos (Nat.lt_of_not_le hshort), if_neg hshort]

theorem preview?_eq : preview? content =
    some (if content.length ≤ previewLength then content else previewFront content ++ "…") := by
  rw [preview?, previewEnd?_eq]
  by_cases hshort : content.length ≤ previewLength
  · rw [if_pos hshort, if_pos hshort]
  · rw [if_neg hshort, if_neg hshort]
    exact congrArg (Option.map (· ++ "…")) (before?_previewFront content)

theorem preview_eq : preview content =
    if content.length ≤ previewLength then content else previewFront content ++ "…" := by
  rw [preview, preview?_eq, Option.getD_some]

/-- The ellipsis is one character too many, and takes its own place when it is cut off. -/
theorem preview_cut (hlong : previewLength < content.length) :
    preview (previewFront content ++ "…") = previewFront content ++ "…" := by
  have hfront : (previewFront content).toList.length = previewLength := by
    rw [previewFront, String.toList_ofList, List.length_take, String.length_toList]
    omega
  have hsame : previewFront (previewFront content ++ "…") = previewFront content := by
    rw [previewFront, String.toList_append,
      List.take_append_of_le_length (Nat.le_of_eq hfront.symm),
      List.take_of_length_le (Nat.le_of_eq hfront), String.ofList_toList]
  have hlonger : ¬ (previewFront content ++ "…").length ≤ previewLength := by
    rw [String.length_append, ← String.length_toList, hfront]
    exact Nat.not_succ_le_self previewLength
  rw [preview_eq, if_neg hlonger, hsame]

end Preview

/-- A message of at most 120 characters is its own preview; of any other, the first 120 are shown
with an ellipsis.  They end at the byte that their widths add up to, between two characters, so that
there is always something to be shown; and a preview is its own preview. -/
theorem previews_cut_between_characters (content : String) :
    let front := String.ofList (content.toList.take 120)
    previewEnd? content =
        (if content.length ≤ 120 then none else some ⟨front.utf8ByteSize⟩) ∧
      (∀ p, previewEnd? content = some p → p.IsValid content ∧ before? content p = some front) ∧
      preview? content = some (if content.length ≤ 120 then content else front ++ "…") ∧
      preview? content = some (preview content) ∧
      preview (preview content) = preview content := by
  intro front
  refine ⟨previewEnd?_eq content, ?_, preview?_eq content, ?_, ?_⟩
  · intro p hp
    rw [previewEnd?_eq] at hp
    split at hp
    next => cases hp
    next =>
      obtain rfl := Option.some.inj hp
      exact ⟨isValid_previewFront content, before?_previewFront content⟩
  · rw [preview, preview?_eq, Option.getD_some]
  · by_cases hshort : content.length ≤ previewLength
    · have hself : preview content = content := by rw [preview_eq, if_pos hshort]
      rw [hself, hself]
    · rw [preview_eq content, if_neg hshort, preview_cut content (Nat.lt_of_not_le hshort)]

end ChatHub
