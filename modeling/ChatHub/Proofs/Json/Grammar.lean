import ChatHub.Json.Raw
import ChatHub.Json.Writer
import Mathlib.Data.List.DropRight
import Mathlib.Data.List.TakeWhile
import Mathlib.Tactic.Common
/-!
The grammar of JSON, as texts and not as a scan: what a gap, a number, a string literal and a value
are, and that the readers of the tokens take just those.
-/

namespace ChatHub.Json

/-- Blanks and nothing else. -/
def IsGap (cs : List Char) : Prop := ∀ c ∈ cs, isBlank c = true

/-- One or more digits. -/
def IsDigits (ds : List Char) : Prop := ds ≠ [] ∧ ∀ d ∈ ds, d.isDigit = true

/-- A lone zero, or digits that do not start with one. -/
def IsWhole (ds : List Char) : Prop := ds = ['0'] ∨ IsDigits ds ∧ ds.head? ≠ some '0'

/-- A point and digits, or nothing. -/
def IsFraction (cs : List Char) : Prop := cs = [] ∨ ∃ ds, IsDigits ds ∧ cs = '.' :: ds

/-- A mark, perhaps a sign, and digits, or nothing. -/
def IsExponent (cs : List Char) : Prop :=
  cs = [] ∨ ∃ mark sign ds, (mark = 'e' ∨ mark = 'E') ∧ (sign = [] ∨ sign = ['+'] ∨ sign = ['-']) ∧
    IsDigits ds ∧ cs = mark :: (sign ++ ds)

def IsNumber (cs : List Char) : Prop :=
  ∃ sign whole fraction exponent, (sign = [] ∨ sign = ['-']) ∧ IsWhole whole ∧
    IsFraction fraction ∧ IsExponent exponent ∧ cs = sign ++ (whole ++ (fraction ++ exponent))

/-- The characters between the quotes of a literal spell these items. -/
inductive Spells : List Piece → List Char → Prop where
  | nil : Spells [] []
  /-- A character that stands for itself. -/
  | verbatim {c : Char} {ps : List Piece} {cs : List Char} (hquote : c ≠ '"') (hslash : c ≠ '\\')
      (hcontrol : ¬ c < ' ') (hrest : Spells ps cs) : Spells (.plain c :: ps) (c :: cs)
  | short {e c : Char} {ps : List Piece} {cs : List Char} (he : shortEscape? e = some c)
      (hrest : Spells ps cs) : Spells (.plain c :: ps) ('\\' :: e :: cs)
  | unit {a b c d : Char} {n : Nat} {ps : List Piece} {cs : List Char}
      (hn : hexUnit? a b c d = some n) (hrest : Spells ps cs) :
      Spells (.unit n :: ps) ('\\' :: 'u' :: a :: b :: c :: d :: cs)

/-- One or more items with commas between them. -/
inductive Row {α : Type} (item : α → List Char → Prop) : List α → List Char → Prop where
  | last {a : α} {cs : List Char} (ha : item a cs) : Row item [a] cs
  | more {a : α} {as : List α} {cs ds : List Char} (ha : item a cs) (hrest : Row item as ds) :
      Row item (a :: as) (cs ++ ',' :: ds)

/-- Items between two brackets. -/
inductive Encloses {α : Type} (item : α → List Char → Prop) (left right : Char) :
    List α → List Char → Prop where
  | empty {g : List Char} (hg : IsGap g) : Encloses item left right [] (left :: (g ++ [right]))
  | filled {as : List α} {cs : List Char} (has : Row item as cs) :
      Encloses item left right as (left :: (cs ++ [right]))

/-- A value with gaps around it. -/
def Item (v : Raw) (cs : List Char) : Prop :=
  ∃ g g', IsGap g ∧ IsGap g' ∧ cs = g ++ (v.text ++ g')

/-- The name of a member with gaps around it, a colon, and its value. -/
def Member (m : List Piece × Raw) (cs : List Char) : Prop :=
  ∃ g name g' value, IsGap g ∧ Spells m.1 name ∧ IsGap g' ∧ Item m.2 value ∧
    cs = g ++ '"' :: (name ++ '"' :: (g' ++ ':' :: value))

/-- The text is one value of JSON, without gaps around it. -/
inductive IsValue : List Char → Prop where
  | null : IsValue null
  | bool (b : Bool) : IsValue (bool b)
  | number {cs : List Char} (hcs : IsNumber cs) : IsValue cs
  | string {ps : List Piece} {cs : List Char} (hcs : Spells ps cs) :
      IsValue ('"' :: (cs ++ ['"']))
  | array {items : List Raw} {cs : List Char} (hitems : ∀ v ∈ items, IsValue v.text)
      (hcs : Encloses Item '[' ']' items cs) : IsValue cs
  | object {members : List (List Piece × Raw)} {cs : List Char}
      (hmembers : ∀ m ∈ members, IsValue m.2.text)
      (hcs : Encloses Member '{' '}' members cs) : IsValue cs

section Gap

variable {g g' cs : List Char}

theorem isGap_nil : IsGap [] := by simp [IsGap]

theorem skipBlanks_gap_append (hg : IsGap g) (cs : List Char) :
    skipBlanks (g ++ cs) = skipBlanks cs :=
  List.dropWhile_append_of_pos hg

theorem skipBlanks_cons {c : Char} (hc : isBlank c = false) (cs : List Char) :
    skipBlanks (c :: cs) = c :: cs :=
  List.dropWhile_cons_of_neg (by simp [hc])

theorem skipBlanks_skipBlanks (cs : List Char) : skipBlanks (skipBlanks cs) = skipBlanks cs :=
  List.dropWhile_idempotent isBlank cs

theorem exists_gap (cs : List Char) : ∃ g, IsGap g ∧ cs = g ++ skipBlanks cs := by
  refine ⟨cs.takeWhile isBlank, fun c hc => List.mem_takeWhile_imp hc, ?_⟩
  exact (List.takeWhile_append_dropWhile).symm

theorem isEmpty_skipBlanks : (skipBlanks cs).isEmpty = true ↔ IsGap cs := by
  rw [List.isEmpty_iff, skipBlanks, List.dropWhile_eq_nil_iff]
  rfl

end Gap

/-- Nothing of what `p` picks comes next. -/
def Stops (p : Char → Bool) (cs : List Char) : Prop := ∀ c, cs.head? = some c → p c = false

theorem Stops.append {p : Char → Bool} {cs ds : List Char} (hcs : Stops p cs)
    (hds : Stops p ds) : Stops p (cs ++ ds) := by
  cases cs with
  | nil => exact hds
  | cons c cs => exact hcs

theorem stops_cons {p : Char → Bool} {c : Char} (hc : p c = false) (cs : List Char) :
    Stops p (c :: cs) := by
  intro d hd
  rw [List.head?_cons, Option.some.injEq] at hd
  exact hd ▸ hc

/-- What may stand behind a value, so that it is plain that the value has come to its end. -/
def Ends (cs : List Char) : Prop :=
  ∀ c, cs.head? = some c → isBlank c = true ∨ c = ',' ∨ c = ']' ∨ c = '}'

theorem ends_gap {g : List Char} (hg : IsGap g) : Ends g :=
  fun _ hc => Or.inl (hg _ (List.mem_of_mem_head? hc))

theorem ends_gap_append {g cs : List Char} (hg : IsGap g) (hcs : Ends cs) : Ends (g ++ cs) := by
  cases g with
  | nil => exact hcs
  | cons c g =>
    intro d hd
    rw [List.cons_append, List.head?_cons, Option.some.injEq] at hd
    exact Or.inl (hd ▸ hg c List.mem_cons_self)

theorem ends_cons {c : Char} (hc : c = ',' ∨ c = ']' ∨ c = '}') (cs : List Char) :
    Ends (c :: cs) := by
  intro d hd
  rw [List.head?_cons, Option.some.injEq] at hd
  exact Or.inr (hd ▸ hc)

theorem Ends.stops {cs : List Char} (hcs : Ends cs) {p : Char → Bool}
    (hp : [' ', '\t', '\n', '\r', ',', ']', '}'].any p = false) : Stops p cs := by
  intro c hc
  have hmem : c ∈ [' ', '\t', '\n', '\r', ',', ']', '}'] := by
    have hends := hcs c hc
    simp only [isBlank, Bool.or_eq_true, beq_iff_eq] at hends
    grind
  exact Bool.eq_false_iff.mpr (List.any_eq_false.mp hp c hmem)

section Number

variable {cs ds rest : List Char}

theorem skipDigits_append (hds : ∀ d ∈ ds, d.isDigit = true) (hrest : Stops Char.isDigit rest) :
    skipDigits (ds ++ rest) = rest := by
  rw [skipDigits, List.dropWhile_append_of_pos hds]
  cases rest with
  | nil => rfl
  | cons c rest => exact List.dropWhile_cons_of_neg (by simp [hrest c rfl])

theorem skipSomeDigits_append (hds : IsDigits ds) (hrest : Stops Char.isDigit rest) :
    skipSomeDigits (ds ++ rest) = some rest := by
  obtain ⟨hne, hall⟩ := hds
  cases ds with
  | nil => exact absurd rfl hne
  | cons d ds =>
    rw [List.cons_append, skipSomeDigits, if_pos (hall d List.mem_cons_self),
      skipDigits_append (fun c hc => hall c (List.mem_cons_of_mem d hc)) hrest]

theorem exists_of_skipSomeDigits (h : skipSomeDigits cs = some rest) :
    ∃ ds, IsDigits ds ∧ cs = ds ++ rest := by
  unfold skipSomeDigits at h
  split at h
  next c r =>
    split at h
    next hc =>
      obtain rfl := Option.some.inj h
      refine ⟨c :: r.takeWhile Char.isDigit, ⟨List.cons_ne_nil _ _, ?_⟩, ?_⟩
      · intro d hd
        rcases List.mem_cons.mp hd with rfl | hd
        · exact hc
        · exact List.mem_takeWhile_imp hd
      · rw [skipDigits, List.cons_append, List.takeWhile_append_dropWhile]
    next => cases h
  next => cases h

theorem IsDigits.exists_head (hds : IsDigits ds) :
    ∃ d ds', ds = d :: ds' ∧ d.isDigit = true := by
  obtain ⟨hne, hall⟩ := hds
  cases ds with
  | nil => exact absurd rfl hne
  | cons d ds => exact ⟨d, ds, rfl, hall d List.mem_cons_self⟩

theorem IsWhole.exists_head (hds : IsWhole ds) : ∃ d ds', ds = d :: ds' ∧ d.isDigit = true := by
  rcases hds with rfl | ⟨hds, _⟩
  · exact ⟨'0', [], rfl, by decide⟩
  · exact hds.exists_head

theorem skipWhole_append (hds : IsWhole ds) (hrest : Stops Char.isDigit rest) :
    skipWhole (ds ++ rest) = some rest := by
  rcases hds with rfl | ⟨hds, hzero⟩
  · rfl
  · have hsome := skipSomeDigits_append hds hrest
    obtain ⟨d, ds', rfl, hd⟩ := hds.exists_head
    have hne : d ≠ '0' := fun heq => hzero (congrArg some heq)
    rw [List.cons_append] at hsome ⊢
    unfold skipWhole
    split
    next heq => exact absurd (List.cons.inj heq).1 hne
    next heq =>
      obtain ⟨rfl, rfl⟩ := List.cons.inj heq
      exact hsome
    next heq => cases heq

theorem exists_of_skipWhole (h : skipWhole cs = some rest) :
    ∃ ds, IsWhole ds ∧ cs = ds ++ rest := by
  unfold skipWhole at h
  split at h
  next r => exact ⟨['0'], Or.inl rfl, by rw [Option.some.inj h]; rfl⟩
  next c r hzero =>
    have hdigits : skipSomeDigits (c :: r) = some rest := h
    obtain ⟨ds, hds, heq⟩ := exists_of_skipSomeDigits hdigits
    refine ⟨ds, Or.inr ⟨hds, fun hhead => ?_⟩, heq⟩
    obtain ⟨d, ds', rfl, _⟩ := hds.exists_head
    obtain ⟨rfl, rfl⟩ := List.cons.inj heq
    exact hzero (Option.some.inj hhead)
  next => cases h

theorem IsFraction.stops (hcs : IsFraction cs) : Stops Char.isDigit cs := by
  rcases hcs with rfl | ⟨ds, _, rfl⟩
  · exact fun _ hc => by cases hc
  · exact stops_cons (by decide) ds

theorem skipFraction_append (hcs : IsFraction cs) (hdigit : Stops Char.isDigit rest)
    (hpoint : Stops (· == '.') rest) : skipFraction (cs ++ rest) = some rest := by
  rcases hcs with rfl | ⟨ds, hds, rfl⟩
  · rw [List.nil_append]
    unfold skipFraction
    split
    next r => exact absurd (hpoint '.' rfl) (by decide)
    next => rfl
  · exact skipSomeDigits_append hds hdigit

theorem exists_of_skipFraction (h : skipFraction cs = some rest) :
    ∃ ds, IsFraction ds ∧ cs = ds ++ rest := by
  unfold skipFraction at h
  split at h
  next r =>
    obtain ⟨ds, hds, rfl⟩ := exists_of_skipSomeDigits h
    exact ⟨'.' :: ds, Or.inr ⟨ds, hds, rfl⟩, rfl⟩
  next => exact ⟨[], Or.inl rfl, Option.some.inj h⟩

theorem IsExponent.stops (hcs : IsExponent cs) {p : Char → Bool} (he : p 'e' = false)
    (hE : p 'E' = false) : Stops p cs := by
  rcases hcs with rfl | ⟨mark, sign, ds, rfl | rfl, _, _, rfl⟩
  · exact fun _ hc => by cases hc
  · exact stops_cons he _
  · exact stops_cons hE _

theorem skipSign_append {sign : List Char} (hsign : sign = [] ∨ sign = ['+'] ∨ sign = ['-'])
    (hds : IsDigits ds) (rest : List Char) : skipSign (sign ++ ds ++ rest) = ds ++ rest := by
  rcases hsign with rfl | rfl | rfl
  · obtain ⟨d, ds', rfl, hd⟩ := hds.exists_head
    simp only [List.nil_append, List.cons_append]
    unfold skipSign
    split
    next heq =>
      rw [(List.cons.inj heq).1] at hd
      exact absurd hd (by decide)
    next heq =>
      rw [(List.cons.inj heq).1] at hd
      exact absurd hd (by decide)
    next => rfl
  · rfl
  · rfl

theorem exists_of_skipSign (cs : List Char) :
    ∃ sign, (sign = [] ∨ sign = ['+'] ∨ sign = ['-']) ∧ cs = sign ++ skipSign cs := by
  unfold skipSign
  split
  next => exact ⟨['+'], by simp, rfl⟩
  next => exact ⟨['-'], by simp, rfl⟩
  next => exact ⟨[], by simp, rfl⟩

theorem skipExponent_append (hcs : IsExponent cs) (hdigit : Stops Char.isDigit rest)
    (hmark : Stops (fun c => c == 'e' || c == 'E') rest) :
    skipExponent (cs ++ rest) = some rest := by
  rcases hcs with rfl | ⟨mark, sign, ds, hmark', hsign, hds, rfl⟩
  · rw [List.nil_append]
    unfold skipExponent
    split
    next r => exact absurd (hmark 'e' rfl) (by decide)
    next r => exact absurd (hmark 'E' rfl) (by decide)
    next => rfl
  · have hdigits := skipSomeDigits_append hds hdigit
    rw [← skipSign_append hsign hds rest] at hdigits
    rcases hmark' with rfl | rfl
    · exact hdigits
    · exact hdigits

theorem exists_of_skipExponent (h : skipExponent cs = some rest) :
    ∃ ds, IsExponent ds ∧ cs = ds ++ rest := by
  have hmarked (mark : Char) (hmark : mark = 'e' ∨ mark = 'E') (r : List Char)
      (hr : skipSomeDigits (skipSign r) = some rest) :
      ∃ ds, IsExponent ds ∧ mark :: r = ds ++ rest := by
    obtain ⟨sign, hsign, heq⟩ := exists_of_skipSign r
    obtain ⟨ds, hds, hrest⟩ := exists_of_skipSomeDigits hr
    refine ⟨mark :: (sign ++ ds), Or.inr ⟨mark, sign, ds, hmark, hsign, hds, rfl⟩, ?_⟩
    rw [heq, hrest, List.cons_append, List.append_assoc]
  unfold skipExponent at h
  split at h
  next r => exact hmarked 'e' (Or.inl rfl) r h
  next r => exact hmarked 'E' (Or.inr rfl) r h
  next => exact ⟨[], Or.inl rfl, Option.some.inj h⟩

/-- A number starts with a digit or a minus. -/
theorem IsNumber.exists_head (hcs : IsNumber cs) :
    ∃ c cs', cs = c :: cs' ∧ (c = '-' ∨ c.isDigit = true) := by
  obtain ⟨sign, whole, fraction, exponent, hsign, hwhole, _, _, rfl⟩ := hcs
  obtain ⟨d, ds, rfl, hd⟩ := hwhole.exists_head
  rcases hsign with rfl | rfl
  · exact ⟨d, _, rfl, Or.inr hd⟩
  · exact ⟨'-', _, rfl, Or.inl rfl⟩

theorem skipNumber_append (hcs : IsNumber cs) (hrest : Ends rest) :
    skipNumber (cs ++ rest) = some rest := by
  obtain ⟨sign, whole, fraction, exponent, hsign, hwhole, hfraction, hexponent, rfl⟩ := hcs
  have hdigit : Stops Char.isDigit rest := hrest.stops rfl
  have hpoint : Stops (· == '.') rest := hrest.stops rfl
  have hmark : Stops (fun c => c == 'e' || c == 'E') rest := hrest.stops rfl
  have hexp := hexponent.stops (p := Char.isDigit) (by decide) (by decide)
  have hpt := hexponent.stops (p := (· == '.')) (by decide) (by decide)
  have hstart : skipNumber (sign ++ (whole ++ (fraction ++ exponent)) ++ rest) =
      (skipWhole (whole ++ (fraction ++ (exponent ++ rest)))).bind fun afterWhole =>
        (skipFraction afterWhole).bind skipExponent := by
    simp only [List.append_assoc]
    rcases hsign with rfl | rfl
    · obtain ⟨d, ds, rfl, hd⟩ := hwhole.exists_head
      simp only [List.nil_append, List.cons_append]
      rw [skipNumber.eq_def]
      split
      next heq =>
        rw [(List.cons.inj heq).1] at hd
        exact absurd hd (by decide)
      next => rfl
    · rfl
  rw [hstart, skipWhole_append hwhole (hfraction.stops.append (hexp.append hdigit)),
    Option.bind_some, skipFraction_append hfraction (hexp.append hdigit) (hpt.append hpoint)]
  exact skipExponent_append hexponent hdigit hmark

theorem exists_of_skipNumber (h : skipNumber cs = some rest) :
    ∃ ds, IsNumber ds ∧ cs = ds ++ rest := by
  simp only [skipNumber, Option.bind_eq_bind, Option.bind_eq_some_iff] at h
  obtain ⟨afterWhole, hwhole, afterFraction, hfraction, hexponent⟩ := h
  obtain ⟨whole, hw, hstart⟩ := exists_of_skipWhole hwhole
  obtain ⟨fraction, hf, rfl⟩ := exists_of_skipFraction hfraction
  obtain ⟨exponent, he, rfl⟩ := exists_of_skipExponent hexponent
  have hsigned : ∃ sign, (sign = [] ∨ sign = ['-']) ∧
      cs = sign ++ (whole ++ (fraction ++ (exponent ++ rest))) := by
    split at hstart
    next r => exact ⟨['-'], Or.inr rfl, by rw [hstart]; rfl⟩
    next => exact ⟨[], Or.inl rfl, hstart⟩
  obtain ⟨sign, hsign, rfl⟩ := hsigned
  refine ⟨_, ⟨sign, whole, fraction, exponent, hsign, hw, hf, he, rfl⟩, ?_⟩
  simp only [List.append_assoc]

end Number

section Word

variable {word cs rest : List Char}

theorem skipWord_append (word rest : List Char) : skipWord word (word ++ rest) = some rest := by
  rw [skipWord, if_pos (List.isPrefixOf_iff_prefix.mpr (List.prefix_append word rest)),
    List.drop_left]

theorem eq_append_of_skipWord (h : skipWord word cs = some rest) : cs = word ++ rest := by
  rw [skipWord] at h
  split at h
  next hp =>
    obtain ⟨t, rfl⟩ := List.isPrefixOf_iff_prefix.mp hp
    rw [← Option.some.inj h, List.drop_left]
  next => cases h

end Word

section Literal

variable {ps : List Piece} {body cs rest : List Char}

theorem pieces?_append (hbody : Spells ps body) (rest : List Char) :
    pieces? (body ++ '"' :: rest) = some (ps, rest) := by
  induction hbody with
  | nil => rfl
  | verbatim hquote hslash hcontrol _ ih =>
    rw [List.cons_append, pieces?.eq_def]
    split
    all_goals simp_all
  | @short e c ps cs he _ ih =>
    have hne : e ≠ 'u' := by
      rintro rfl
      cases he
    simp only [List.cons_append]
    unfold pieces?
    split
    all_goals grind
  | unit hn _ ih =>
    simp only [List.cons_append]
    rw [pieces?, hn, ih]

theorem exists_of_pieces? (h : pieces? cs = some (ps, rest)) :
    ∃ body, Spells ps body ∧ cs = body ++ '"' :: rest := by
  fun_induction pieces? cs generalizing ps with
  | case1 | case4 | case6 | case7 | case9 => cases h
  | case2 r =>
    cases h
    exact ⟨[], .nil, rfl⟩
  | case3 a b c d r n qs after hr hn ih =>
    cases h
    obtain ⟨body, hbody, rfl⟩ := ih hr
    exact ⟨_, .unit hn hbody, rfl⟩
  | case5 e r _ c qs after hr he ih =>
    cases h
    obtain ⟨body, hbody, rfl⟩ := ih hr
    exact ⟨_, .short he hbody, rfl⟩
  | case8 c r hquote _ hescape hcontrol qs after hr ih =>
    cases h
    obtain ⟨body, hbody, rfl⟩ := ih hr
    have hslash : c ≠ '\\' := by
      -- a backslash in front of anything else is taken for an escape
      intro heq
      cases hrest : body ++ '"' :: rest with
      | nil => simp at hrest
      | cons e r => exact hescape e r heq hrest
    exact ⟨_, .verbatim hquote hslash hcontrol hbody, rfl⟩

end Literal

end ChatHub.Json
