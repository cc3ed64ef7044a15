import ChatHub.Config.Setting
import ChatHub.Proofs.Json.Grammar
import ChatHub.Proofs.Metrics.Numeral
/-!
Which texts are taken for numbers where a setting is read: the grammar of the numerals, and other
spellings of the same number.
-/

namespace ChatHub.Decimal

open Json (IsDigits)
open Text (lowerChar)

section Grammar

/-- What may stand before a numeral. -/
def signs : List (List Char) := [[], ['+'], ['-']]

/-- What stands for the values that have no digits, in any case. -/
def words : List String := ["inf", "infinity", "nan"]

/-- Digits, perhaps with a point before, between or behind them. -/
inductive IsFixed : List Char → Prop
  | whole {digits : List Char} (hdigits : IsDigits digits) : IsFixed digits
  | point {before after : List Char} (hdigits : IsDigits (before ++ after)) :
      IsFixed (before ++ '.' :: after)

inductive IsExponent : List Char → Prop
  | absent : IsExponent []
  | marked {mark : Char} {sign digits : List Char} (hmark : mark = 'e' ∨ mark = 'E')
      (hsign : sign ∈ signs) (hdigits : IsDigits digits) : IsExponent (mark :: (sign ++ digits))

/-- A number without a sign. -/
inductive IsUnsigned : List Char → Prop
  | word {cs : List Char} (hword : String.ofList (cs.map lowerChar) ∈ words) : IsUnsigned cs
  | number {fixed exponent : List Char} (hfixed : IsFixed fixed) (hexponent : IsExponent exponent) :
      IsUnsigned (fixed ++ exponent)

def IsNumeral (cs : List Char) : Prop :=
  ∃ sign ∈ signs, ∃ body, IsUnsigned body ∧ cs = sign ++ body

end Grammar

section Sign

variable {cs sign body : List Char}

theorem takeSign_append (hsign : sign ∈ signs)
    (hbody : body.head? ≠ some '+' ∧ body.head? ≠ some '-') :
    takeSign (sign ++ body) = (sign == ['-'], body) := by
  simp only [signs, List.mem_cons, List.not_mem_nil, or_false] at hsign
  rcases hsign with rfl | rfl | rfl
  · rw [List.nil_append, takeSign.eq_def]
    split
    next => exact absurd rfl hbody.2
    next => exact absurd rfl hbody.1
    next => rfl
  · rfl
  · rfl

theorem exists_sign (cs : List Char) :
    ∃ sign ∈ signs, cs = sign ++ (takeSign cs).2 ∧ (takeSign cs).1 = (sign == ['-']) := by
  rw [takeSign.eq_def]
  split
  next rest => exact ⟨['-'], by decide, rfl, rfl⟩
  next rest => exact ⟨['+'], by decide, rfl, rfl⟩
  next => exact ⟨[], by decide, rfl, rfl⟩

end Sign

section Digits

variable {cs ds rest : List Char}

theorem natural?_eq_some_iff {n : Nat} :
    natural? cs = some n ↔ IsDigits cs ∧ n = ofDigits cs := by
  rw [natural?, Option.ite_none_left_eq_some, Bool.or_eq_true, not_or, List.isEmpty_iff,
    Bool.not_eq_true', Bool.not_eq_false, List.all_eq_true, Option.some.injEq, eq_comm (a := n)]
  rfl

theorem ofDigits_zero_cons (cs : List Char) : ofDigits ('0' :: cs) = ofDigits cs := rfl

theorem isDigits_zero_cons (hcs : ∀ c ∈ cs, c.isDigit = true) : IsDigits ('0' :: cs) :=
  ⟨List.cons_ne_nil _ _, List.forall_mem_cons.mpr ⟨rfl, hcs⟩⟩

theorem head_ne_sign_of_isDigits (h : IsDigits cs) :
    cs.head? ≠ some '+' ∧ cs.head? ≠ some '-' := by
  constructor
  · exact fun hsome => Bool.false_ne_true (h.2 '+' (List.mem_of_head? hsome))
  · exact fun hsome => Bool.false_ne_true (h.2 '-' (List.mem_of_head? hsome))

theorem natural?_of_isDigits (h : IsDigits cs) : natural? cs = some (ofDigits cs) :=
  natural?_eq_some_iff.mpr ⟨h, rfl⟩

/-- A row of digits ends where something else begins. -/
theorem span_isDigit (hds : ∀ c ∈ ds, c.isDigit = true)
    (hrest : ∀ c ∈ rest.head?, c.isDigit = false) :
    (ds ++ rest).takeWhile Char.isDigit = ds ∧ (ds ++ rest).dropWhile Char.isDigit = rest := by
  refine ⟨?_, Text.dropWhile_append_of_forall hds hrest⟩
  rw [List.takeWhile_append_of_pos hds]
  cases rest with
  | nil => exact List.append_nil ds
  | cons c cs =>
    rw [List.takeWhile_cons_of_neg (Bool.eq_false_iff.mp (hrest c rfl)), List.append_nil]

theorem exists_span (cs : List Char) : ∃ ds rest, cs = ds ++ rest ∧
    (∀ c ∈ ds, c.isDigit = true) ∧ ∀ c ∈ rest.head?, c.isDigit = false := by
  refine ⟨cs.takeWhile Char.isDigit, cs.dropWhile Char.isDigit,
    List.takeWhile_append_dropWhile.symm, List.all_eq_true.mp List.all_takeWhile, fun c hc => ?_⟩
  have hhead := List.head?_dropWhile_not Char.isDigit cs
  rw [Option.mem_def.mp hc] at hhead
  exact hhead

end Digits

section Magnitude

variable {cs ds before after exponent : List Char} {negative : Bool}

theorem exponent?_cons {mark : Char} (hmark : mark = 'e' ∨ mark = 'E') (cs : List Char) :
    exponent? (mark :: cs) = (natural? (takeSign cs).2).map fun n : Nat =>
      if (takeSign cs).1 then -(n : Int) else (n : Int) := by
  rw [exponent?, if_pos (by simpa using hmark)]
  obtain ⟨negative, digits⟩ := takeSign cs
  cases hdigits : natural? digits with
  | none => simp [hdigits]
  | some n => simp [hdigits]

theorem exponent?_isSome_iff : (exponent? cs).isSome = true ↔ IsExponent cs := by
  constructor
  · intro hsome
    cases cs with
    | nil => exact .absent
    | cons mark rest =>
      by_cases hmark : mark = 'e' ∨ mark = 'E'
      · rw [exponent?_cons hmark, Option.isSome_map, Option.isSome_iff_exists] at hsome
        obtain ⟨n, hn⟩ := hsome
        obtain ⟨sign, hsign, hrest, _⟩ := exists_sign rest
        rw [hrest]
        exact .marked hmark hsign (natural?_eq_some_iff.mp hn).1
      · rw [exponent?, if_neg (by simpa using hmark)] at hsome
        cases hsome
  · rintro (_ | ⟨hmark, hsign, hdigits⟩)
    · rfl
    · rw [exponent?_cons hmark, takeSign_append hsign (head_ne_sign_of_isDigits hdigits),
        natural?_of_isDigits hdigits]
      rfl

/-- Neither a digit nor a point begins an exponent. -/
theorem IsExponent.head (h : IsExponent exponent) :
    (∀ c ∈ exponent.head?, c.isDigit = false) ∧ exponent.head? ≠ some '.' := by
  cases h with
  | absent => exact ⟨nofun, nofun⟩
  | marked hmark hsign hdigits =>
    rcases hmark with rfl | rfl
    · simp
    · simp

theorem magnitude?_whole (hdigits : IsDigits ds) (hexponent : IsExponent exponent) :
    magnitude? negative (ds ++ exponent) =
      (exponent? exponent).map fun e => .ofDecimal .nearest negative (ofDigits ds) e := by
  obtain ⟨htake, hdrop⟩ := span_isDigit hdigits.2 hexponent.head.1
  have hempty : ds.isEmpty = false := by
    rw [Bool.eq_false_iff, ne_eq, List.isEmpty_iff]
    exact hdigits.1
  rw [magnitude?, magnitudeWith?]
  simp only [htake, hdrop]
  cases hexponent with
  | absent => simp [hempty]
  | marked hmark hsign hexp =>
    rcases hmark with rfl | rfl
    · simp [hempty]
    · simp [hempty]

theorem magnitude?_point (hdigits : IsDigits (before ++ after)) (hexponent : IsExponent exponent) :
    magnitude? negative (before ++ '.' :: after ++ exponent) =
      (exponent? exponent).map fun e =>
        .ofDecimal .nearest negative (ofDigits (before ++ after)) (e - after.length) := by
  obtain ⟨hbefore, hafter⟩ := List.forall_mem_append.mp hdigits.2
  have hpoint : ∀ c ∈ ('.' :: (after ++ exponent)).head?, c.isDigit = false := by simp
  have hfirst := span_isDigit hbefore hpoint
  have hsecond := span_isDigit hafter hexponent.head.1
  have hempty : (before.isEmpty && after.isEmpty) = false := by
    rw [Bool.eq_false_iff, ne_eq, Bool.and_eq_true, List.isEmpty_iff, List.isEmpty_iff,
      ← List.append_eq_nil_iff]
    exact hdigits.1
  rw [magnitude?, magnitudeWith?, List.append_assoc, List.cons_append]
  simp only [hfirst, hsecond, hempty, Bool.false_eq_true, if_false]

/-- The same number with a zero in front. -/
theorem magnitude?_zero_cons {fixed : List Char} (hfixed : IsFixed fixed)
    (hexponent : IsExponent exponent) :
    magnitude? negative ('0' :: (fixed ++ exponent)) = magnitude? negative (fixed ++ exponent) := by
  cases hfixed with
  | whole hdigits =>
    rw [magnitude?_whole hdigits hexponent, ← List.cons_append,
      magnitude?_whole (isDigits_zero_cons hdigits.2) hexponent, ofDigits_zero_cons]
  | @point before after hdigits =>
    have hzero : IsDigits ('0' :: before ++ after) := isDigits_zero_cons hdigits.2
    rw [magnitude?_point hdigits hexponent]
    exact magnitude?_point hzero hexponent

theorem magnitude?_isSome_iff : (magnitude? negative cs).isSome = true ↔
    ∃ fixed exponent, IsFixed fixed ∧ IsExponent exponent ∧ cs = fixed ++ exponent := by
  constructor
  · intro hsome
    obtain ⟨before, rest, rfl, hbefore, hrest⟩ := exists_span cs
    rw [magnitude?, magnitudeWith?] at hsome
    simp only [span_isDigit hbefore hrest] at hsome
    split at hsome
    next _ tail =>
      -- behind the point there is another row of digits
      obtain ⟨after, exponent, rfl, hafter, hexponent⟩ := exists_span tail
      simp only [span_isDigit hafter hexponent] at hsome
      split at hsome
      next => cases hsome
      next hempty =>
        rw [Option.isSome_map, exponent?_isSome_iff] at hsome
        rw [Bool.and_eq_true, List.isEmpty_iff, List.isEmpty_iff,
          ← List.append_eq_nil_iff] at hempty
        exact ⟨_, exponent, .point ⟨hempty, List.forall_mem_append.mpr ⟨hbefore, hafter⟩⟩, hsome,
          by simp⟩
    next =>
      simp only at hsome
      split at hsome
      next => cases hsome
      next hempty =>
        rw [Option.isSome_map, exponent?_isSome_iff] at hsome
        simp only [List.isEmpty_nil, Bool.and_true, List.isEmpty_iff] at hempty
        exact ⟨before, rest, .whole ⟨hempty, hbefore⟩, hsome, rfl⟩
  · rintro ⟨fixed, exponent, hfixed, hexponent, rfl⟩
    cases hfixed with
    | whole hdigits =>
      rw [magnitude?_whole hdigits hexponent, Option.isSome_map]
      exact exponent?_isSome_iff.mpr hexponent
    | point hdigits =>
      rw [magnitude?_point hdigits hexponent, Option.isSome_map]
      exact exponent?_isSome_iff.mpr hexponent

end Magnitude

/-- What a number without a sign is read as. -/
def unsigned? (negative : Bool) (cs : List Char) : Option Value :=
  match String.ofList (cs.map lowerChar) with
  | "inf" => some (.infinite negative)
  | "infinity" => some (.infinite negative)
  | "nan" => some .nan
  | _ => magnitude? negative cs

section Unsigned

variable {cs sign body : List Char} {negative : Bool}

theorem ofText?_eq (cs : List Char) :
    Value.ofText? cs = unsigned? (takeSign cs).1 (takeSign cs).2 := rfl

theorem unsigned?_of_not_mem (hword : String.ofList (cs.map lowerChar) ∉ words) :
    unsigned? negative cs = magnitude? negative cs := by
  simp only [words, List.mem_cons, List.not_mem_nil, or_false, not_or] at hword
  obtain ⟨hinf, hinfinity, hnan⟩ := hword
  rw [unsigned?]
  split
  next heq => exact absurd heq hinf
  next heq => exact absurd heq hinfinity
  next heq => exact absurd heq hnan
  next => rfl

theorem unsigned?_isSome_of_mem (hword : String.ofList (cs.map lowerChar) ∈ words) :
    (unsigned? negative cs).isSome = true := by
  simp only [words, List.mem_cons, List.not_mem_nil, or_false] at hword
  rw [unsigned?]
  rcases hword with heq | heq | heq
  · rw [heq]; rfl
  · rw [heq]; rfl
  · rw [heq]; rfl

theorem unsigned?_isSome_iff : (unsigned? negative cs).isSome = true ↔ IsUnsigned cs := by
  by_cases hword : String.ofList (cs.map lowerChar) ∈ words
  · exact iff_of_true (unsigned?_isSome_of_mem hword) (.word hword)
  · rw [unsigned?_of_not_mem hword, magnitude?_isSome_iff]
    constructor
    · rintro ⟨fixed, exponent, hfixed, hexponent, rfl⟩
      exact .number hfixed hexponent
    · intro h
      cases h with
      | word h => exact absurd h hword
      | number hfixed hexponent => exact ⟨_, _, hfixed, hexponent, rfl⟩

theorem head_of_mem_words (hword : String.ofList cs ∈ words) :
    cs.head? = some 'i' ∨ cs.head? = some 'n' := by
  simp only [words, List.mem_cons, List.not_mem_nil, or_false] at hword
  have hlist {s : String} (heq : String.ofList cs = s) : cs = s.toList := by
    rw [← heq, String.toList_ofList]
  rcases hword with heq | heq | heq
  · exact Or.inl (hlist heq ▸ rfl)
  · exact Or.inl (hlist heq ▸ rfl)
  · exact Or.inr (hlist heq ▸ rfl)

theorem IsFixed.head {fixed : List Char} (h : IsFixed fixed) (rest : List Char) :
    ∃ c, (fixed ++ rest).head? = some c ∧ (c.isDigit = true ∨ c = '.') := by
  cases h with
  | whole hdigits =>
    obtain ⟨d, ds, rfl⟩ := List.exists_cons_of_ne_nil hdigits.1
    exact ⟨d, rfl, Or.inl (hdigits.2 d List.mem_cons_self)⟩
  | @point before after hdigits =>
    cases before with
    | nil => exact ⟨'.', rfl, Or.inr rfl⟩
    | cons d ds => exact ⟨d, rfl, Or.inl (hdigits.2 d List.mem_cons_self)⟩

/-- A number without a sign begins with a digit, a point or a letter. -/
theorem IsUnsigned.head (h : IsUnsigned cs) :
    ∃ c, cs.head? = some c ∧
      (c.isDigit = true ∨ c = '.' ∨ lowerChar c = 'i' ∨ lowerChar c = 'n') := by
  cases h with
  | word hword =>
    have hhead := head_of_mem_words hword
    cases cs with
    | nil => exact absurd hhead (by decide)
    | cons c cs =>
      simp only [List.map_cons, List.head?_cons, Option.some.injEq] at hhead
      exact ⟨c, rfl, Or.inr (Or.inr hhead)⟩
  | number hfixed hexponent =>
    obtain ⟨c, hc, hkind⟩ := hfixed.head _
    exact ⟨c, hc, hkind.imp_right Or.inl⟩

theorem IsUnsigned.head_ne_sign (h : IsUnsigned cs) :
    cs.head? ≠ some '+' ∧ cs.head? ≠ some '-' := by
  obtain ⟨c, hc, hkind⟩ := h.head
  rw [hc]
  constructor
  · rintro ⟨⟩
    exact absurd hkind (by decide)
  · rintro ⟨⟩
    exact absurd hkind (by decide)

theorem IsNumeral.head (h : IsNumeral cs) : ∃ c, cs.head? = some c ∧ (c = '+' ∨ c = '-' ∨
    c.isDigit = true ∨ c = '.' ∨ lowerChar c = 'i' ∨ lowerChar c = 'n') := by
  obtain ⟨sign, hsign, body, hbody, rfl⟩ := h
  simp only [signs, List.mem_cons, List.not_mem_nil, or_false] at hsign
  rcases hsign with rfl | rfl | rfl
  · obtain ⟨c, hc, hkind⟩ := hbody.head
    exact ⟨c, hc, Or.inr (Or.inr hkind)⟩
  · exact ⟨'+', rfl, Or.inl rfl⟩
  · exact ⟨'-', rfl, Or.inr (Or.inl rfl)⟩

theorem ofText?_isSome_iff : (Value.ofText? cs).isSome = true ↔ IsNumeral cs := by
  rw [ofText?_eq, unsigned?_isSome_iff]
  constructor
  · intro hbody
    obtain ⟨sign, hsign, hcs, _⟩ := exists_sign cs
    exact ⟨sign, hsign, _, hbody, hcs⟩
  · rintro ⟨sign, hsign, body, hbody, rfl⟩
    rw [takeSign_append hsign hbody.head_ne_sign]
    exact hbody

end Unsigned

section Integer

variable {cs sign body : List Char} {n : Int}

theorem natural?_zero_cons (hne : cs ≠ []) : natural? ('0' :: cs) = natural? cs := by
  ext n
  rw [natural?_eq_some_iff, natural?_eq_some_iff, ofDigits_zero_cons]
  apply and_congr_left
  intro _
  exact ⟨fun h => ⟨hne, fun c hc => h.2 c (List.mem_cons_of_mem '0' hc)⟩,
    fun h => isDigits_zero_cons h.2⟩

theorem takeSign_zero (hsign : sign ∈ signs) (cs : List Char) :
    takeSign (sign ++ '0' :: cs) = (sign == ['-'], '0' :: cs) :=
  takeSign_append hsign ⟨by simp, by simp⟩

/-- Whole numbers of 64 bits, and how they are read. -/
theorem integer?_eq_some_iff : integer? cs = some n ↔
    ∃ sign ∈ signs, ∃ digits, IsDigits digits ∧ cs = sign ++ digits ∧
      n = (if sign = ['-'] then -(ofDigits digits : Int) else ofDigits digits) ∧
      -(UInt64.size / 2 : Nat) ≤ n ∧ n < (UInt64.size / 2 : Nat) := by
  have hsize : UInt64.size = 18446744073709551616 := rfl
  have hbound {negative : Bool} {k : Nat} :
      (if negative then if k ≤ UInt64.size / 2 then some (-(k : Int)) else none
        else if k < UInt64.size / 2 then some (k : Int) else none) = some n ↔
      n = (if negative then -(k : Int) else k) ∧
        -(UInt64.size / 2 : Nat) ≤ n ∧ n < (UInt64.size / 2 : Nat) := by
    cases negative with
    | true =>
      simp only [if_true, Option.ite_none_right_eq_some, Option.some.injEq]
      omega
    | false =>
      simp only [Bool.false_eq_true, if_false, Option.ite_none_right_eq_some, Option.some.injEq]
      omega
  constructor
  · intro hread
    obtain ⟨sign, hsign, hcs, hminus⟩ := exists_sign cs
    simp only [integer?, Option.bind_eq_some_iff, natural?_eq_some_iff] at hread
    obtain ⟨k, ⟨hdigits, rfl⟩, hn⟩ := hread
    refine ⟨sign, hsign, _, hdigits, hcs, ?_⟩
    rw [hminus] at hn
    simpa using hbound.mp hn
  · rintro ⟨sign, hsign, digits, hdigits, rfl, hn⟩
    simp only [integer?, takeSign_append hsign (head_ne_sign_of_isDigits hdigits),
      natural?_of_isDigits hdigits, Option.bind_some]
    apply hbound.mpr
    simpa using hn

theorem isNumeral_of_integer? (h : integer? cs = some n) : IsNumeral cs := by
  obtain ⟨sign, hsign, digits, hdigits, rfl, _⟩ := integer?_eq_some_iff.mp h
  refine ⟨sign, hsign, digits, ?_, rfl⟩
  rw [← List.append_nil digits]
  exact .number (.whole hdigits) .absent

/-- A zero behind the sign makes no difference to a number in digits. -/
theorem integer?_zero (hsign : sign ∈ signs) (hbody : IsUnsigned body) :
    integer? (sign ++ '0' :: body) = integer? (sign ++ body) := by
  have hne : body ≠ [] := by
    rintro rfl
    obtain ⟨c, hc, _⟩ := hbody.head
    cases hc
  simp only [integer?, takeSign_append hsign hbody.head_ne_sign, takeSign_zero hsign,
    natural?_zero_cons hne]

theorem lowerChar_of_isDigit {c : Char} (hc : c.isDigit = true) : lowerChar c = c := by
  rw [lowerChar, if_neg]
  rintro ⟨hletter, _⟩
  simp only [Char.isDigit, Bool.and_eq_true, decide_eq_true_eq] at hc
  have hletter : (65 : UInt32) ≤ c.val := hletter
  exact absurd (UInt32.le_trans hletter hc.2) (by decide)

/-- No word begins with a digit or a point. -/
theorem not_mem_words {c : Char} (hhead : cs.head? = some c) (hc : c.isDigit = true ∨ c = '.') :
    String.ofList (cs.map lowerChar) ∉ words := by
  intro hword
  have hlower : lowerChar c = c := by
    rcases hc with hdigit | rfl
    · exact lowerChar_of_isDigit hdigit
    · rfl
  have hletter := head_of_mem_words hword
  rw [List.head?_map, hhead, Option.map_some, hlower, Option.some.injEq,
    Option.some.injEq] at hletter
  rcases hletter with rfl | rfl
  · exact absurd hc (by decide)
  · exact absurd hc (by decide)

/-- A word is not read as a whole number. -/
theorem integer?_of_mem_words (hsign : sign ∈ signs)
    (hword : String.ofList (body.map lowerChar) ∈ words) : integer? (sign ++ body) = none := by
  have hnatural : natural? body = none := by
    rw [Option.eq_none_iff_forall_ne_some]
    intro k hk
    obtain ⟨d, ds, rfl⟩ := List.exists_cons_of_ne_nil (natural?_eq_some_iff.mp hk).1.1
    have hdigit := (natural?_eq_some_iff.mp hk).1.2 d List.mem_cons_self
    exact not_mem_words rfl (Or.inl hdigit) hword
  simp only [integer?, takeSign_append hsign (IsUnsigned.word hword).head_ne_sign, hnatural,
    Option.bind_none]

/-- A word stands for no proper number. -/
theorem ofText?_of_mem_words (hsign : sign ∈ signs)
    (hword : String.ofList (body.map lowerChar) ∈ words) :
    Value.ofText? (sign ++ body) = some .nan ∨
      ∃ negative, Value.ofText? (sign ++ body) = some (.infinite negative) := by
  rw [ofText?_eq, takeSign_append hsign (IsUnsigned.word hword).head_ne_sign]
  simp only [words, List.mem_cons, List.not_mem_nil, or_false] at hword
  simp only [unsigned?]
  rcases hword with heq | heq | heq
  · rw [heq]
    exact Or.inr ⟨_, rfl⟩
  · rw [heq]
    exact Or.inr ⟨_, rfl⟩
  · rw [heq]
    exact Or.inl rfl

theorem ofText?_zero {fixed exponent : List Char} (hsign : sign ∈ signs) (hfixed : IsFixed fixed)
    (hexponent : IsExponent exponent) :
    Value.ofText? (sign ++ '0' :: (fixed ++ exponent)) =
      Value.ofText? (sign ++ (fixed ++ exponent)) := by
  have hhead := (IsUnsigned.number hfixed hexponent).head_ne_sign
  obtain ⟨c, hc, hkind⟩ := hfixed.head exponent
  rw [ofText?_eq, ofText?_eq, takeSign_append hsign hhead, takeSign_zero hsign,
    unsigned?_of_not_mem (not_mem_words hc hkind),
    unsigned?_of_not_mem (not_mem_words rfl (Or.inl rfl))]
  exact magnitude?_zero_cons hfixed hexponent

end Integer

section Written

theorem ofDigits_toDigits (n : Nat) : ofDigits (Nat.toDigits 10 n) = n := by
  have hread : Nat.ofDigitChars 10 (Nat.toDigits 10 n) 0 = n := Nat.ofDigitChars_ten_toDigits
  rw [Nat.ofDigitChars_eq_foldl] at hread
  simpa only [ofDigits, Nat.mul_comm 10] using hread

theorem isDigits_toDigits (n : Nat) : IsDigits (Nat.toDigits 10 n) :=
  Metrics.isDigits_iff.mp (Metrics.isDigits_toDigits n)

/-- A whole number of 64 bits is read as it is written. -/
theorem integer?_writeInteger {n : Int} (hleast : -(UInt64.size / 2 : Nat) ≤ n)
    (hgreatest : n < (UInt64.size / 2 : Nat)) : integer? (Setting.writeInteger n) = some n := by
  rw [integer?_eq_some_iff]
  refine ⟨if n < 0 then ['-'] else [], ?_, Nat.toDigits 10 n.natAbs, isDigits_toDigits _, rfl, ?_,
    hleast, hgreatest⟩
  · split
    · decide
    · decide
  · rw [ofDigits_toDigits]
    split
    next hnegative =>
      rw [if_pos rfl]
      omega
    next hpositive =>
      rw [if_neg (by decide)]
      omega

theorem isFixed_of_isFixed {cs : List Char} (h : Metrics.isFixed cs = true) : IsFixed cs := by
  rw [Metrics.isFixed, Bool.and_eq_true, Metrics.isDigits_iff] at h
  obtain ⟨hwhole, hfraction⟩ := h
  rw [← Text.append_cutAt '.' cs]
  cases hcut : (Text.cutAt '.' cs).2 with
  | none =>
    rw [Option.elim_none, List.append_nil]
    exact .whole hwhole
  | some fraction =>
    rw [hcut, Option.all_some, Metrics.isDigits_iff] at hfraction
    exact .point ⟨List.append_ne_nil_of_left_ne_nil hwhole.1 _,
      List.forall_mem_append.mpr ⟨hwhole.2, hfraction.2⟩⟩

theorem exists_withoutSign (cs : List Char) :
    ∃ sign ∈ signs, cs = sign ++ Metrics.withoutSign cs := by
  rw [Metrics.withoutSign.eq_def]
  split
  next => exact ⟨['-'], by decide, rfl⟩
  next => exact ⟨[], by decide, rfl⟩

theorem isUnsigned_of_isUnsigned {cs : List Char} (h : Metrics.isUnsigned cs = true) :
    IsUnsigned cs := by
  rw [Metrics.isUnsigned, Bool.and_eq_true] at h
  obtain ⟨hmantissa, hexponent⟩ := h
  rw [← Text.append_cutAt 'e' cs]
  cases hcut : (Text.cutAt 'e' cs).2 with
  | none => exact .number (isFixed_of_isFixed hmantissa) .absent
  | some exponent =>
    rw [hcut, Option.all_some, Metrics.isDigits_iff] at hexponent
    obtain ⟨sign, hsign, heq⟩ := exists_withoutSign exponent
    rw [heq]
    exact .number (isFixed_of_isFixed hmantissa) (.marked (Or.inl rfl) hsign hexponent)

/-- What is written for a number is taken for one. -/
theorem isNumeral_write (l : Layout) (decimal : Binary → Decimal) (v : Value) :
    IsNumeral (l.write decimal v) := by
  have h := Metrics.isNumeral_write l decimal v
  obtain ⟨sign, hsign, heq⟩ := exists_withoutSign (l.write decimal v)
  refine ⟨sign, hsign, _, ?_, heq⟩
  rw [Metrics.isNumeral, Bool.or_eq_true, Bool.or_eq_true, beq_iff_eq, beq_iff_eq] at h
  rcases h with (hnan | hinf) | hnumber
  · rw [hnan]
    exact .word (by decide)
  · rw [hinf]
    exact .word (by decide)
  · exact isUnsigned_of_isUnsigned hnumber

end Written

end ChatHub.Decimal
