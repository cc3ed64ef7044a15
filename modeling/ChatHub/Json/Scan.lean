import ChatHub.Json.StringLiteral
/-!
Where a JSON value ends.  The scan follows the grammar and nothing else, so that a value that is
passed on, or passed over, may nest to any depth, hold numbers of any size and repeat its members.
What is still open is kept in a list; each turn of the loop takes at least one character.
-/

namespace ChatHub.Json

/-- The characters that may stand between tokens. -/
def isBlank (c : Char) : Bool := c == ' ' || c == '\t' || c == '\n' || c == '\r'

def skipBlanks (cs : List Char) : List Char := cs.dropWhile isBlank

/-- What follows `word`, if the text starts with it. -/
def skipWord (word cs : List Char) : Option (List Char) :=
  if word.isPrefixOf cs then some (cs.drop word.length) else none

def skipDigits (cs : List Char) : List Char := cs.dropWhile Char.isDigit

/-- Whole part of a number: a lone zero, or digits that do not start with one. -/
def skipWhole : List Char → Option (List Char)
  | '0' :: rest => some rest
  | c :: rest => if c.isDigit then some (skipDigits rest) else none
  | [] => none

def skipSomeDigits : List Char → Option (List Char)
  | c :: rest => if c.isDigit then some (skipDigits rest) else none
  | [] => none

def skipFraction : List Char → Option (List Char)
  | '.' :: rest => skipSomeDigits rest
  | cs => some cs

def skipSign : List Char → List Char
  | '+' :: rest => rest
  | '-' :: rest => rest
  | cs => cs

def skipExponent : List Char → Option (List Char)
  | 'e' :: rest => skipSomeDigits (skipSign rest)
  | 'E' :: rest => skipSomeDigits (skipSign rest)
  | cs => some cs

def skipNumber (cs : List Char) : Option (List Char) := do
  let afterWhole ← skipWhole (match cs with | '-' :: rest => rest | _ => cs)
  let afterFraction ← skipFraction afterWhole
  skipExponent afterFraction

/-- A value without parts of its own. -/
def skipScalar (cs : List Char) : Option (List Char) :=
  match cs with
  | '"' :: rest => (pieces? rest).map (·.2)
  | 'n' :: _ => skipWord ['n', 'u', 'l', 'l'] cs
  | 't' :: _ => skipWord ['t', 'r', 'u', 'e'] cs
  | 'f' :: _ => skipWord ['f', 'a', 'l', 's', 'e'] cs
  | _ => skipNumber cs

/-- The name of a member and what follows its colon. -/
def takeName (cs : List Char) : Option (List Piece × List Char) :=
  match skipBlanks cs with
  | '"' :: rest =>
      match pieces? rest with
      | some (name, after) =>
          match skipBlanks after with
          | ':' :: value => some (name, value)
          | _ => none
      | none => none
  | _ => none

/-- A part that has been opened. -/
inductive Bracket where
  | array
  | object
deriving DecidableEq, Repr

/-- How far a scan has come: to the end of the outermost value, or to a place where another
value has to follow, with the open parts, innermost first. -/
inductive Progress where
  | done (rest : List Char)
  | value (opened : List Bracket) (rest : List Char)

/-- What has not been scanned yet. -/
def Progress.rest : Progress → List Char
  | .done rest => rest
  | .value _ rest => rest

/-- From the end of a value: closes what is closed there. -/
def closing : List Bracket → List Char → Option Progress
  | [], cs => some (.done cs)
  | .array :: outer, cs =>
      match skipBlanks cs with
      | ']' :: rest => closing outer rest
      | ',' :: rest => some (.value (.array :: outer) rest)
      | _ => none
  | .object :: outer, cs =>
      match skipBlanks cs with
      | '}' :: rest => closing outer rest
      | ',' :: rest => (takeName rest).map fun (_, value) => .value (.object :: outer) value
      | _ => none

/-- From a place where a value has to start to the next such place, or to the end. -/
def advance (opened : List Bracket) (cs : List Char) : Option Progress :=
  match skipBlanks cs with
  | '[' :: rest =>
      match skipBlanks rest with
      | ']' :: after => closing opened after
      | _ => some (.value (.array :: opened) rest)
  | '{' :: rest =>
      match skipBlanks rest with
      | '}' :: after => closing opened after
      | _ => (takeName rest).map fun (_, value) => .value (.object :: opened) value
  | cs => (skipScalar cs).bind (closing opened)

section Lengths

theorem dropWhile_length_le {α : Type} (p : α → Bool) (xs : List α) :
    (xs.dropWhile p).length ≤ xs.length :=
  (List.dropWhile_sublist p).length_le

theorem skipBlanks_length_le (cs : List Char) : (skipBlanks cs).length ≤ cs.length :=
  dropWhile_length_le _ _

theorem skipWord_length {word cs rest : List Char} (h : skipWord word cs = some rest)
    (hw : word ≠ []) : rest.length < cs.length := by
  unfold skipWord at h
  split at h
  next hp =>
    obtain ⟨t, rfl⟩ := List.isPrefixOf_iff_prefix.1 hp
    have : 0 < word.length := List.length_pos_iff.2 hw
    simp only [List.drop_left, Option.some.injEq] at h
    subst h
    simp only [List.length_append]
    omega
  next => simp at h

theorem skipSomeDigits_length {cs rest : List Char} (h : skipSomeDigits cs = some rest) :
    rest.length < cs.length := by
  unfold skipSomeDigits at h
  split at h
  next c r =>
    split at h
    next =>
      have := dropWhile_length_le Char.isDigit r
      simp only [Option.some.injEq] at h
      subst h
      simp only [skipDigits, List.length_cons]
      omega
    next => simp at h
  next => simp at h

theorem skipWhole_length {cs rest : List Char} (h : skipWhole cs = some rest) :
    rest.length < cs.length := by
  unfold skipWhole at h
  split at h
  next r => simp only [Option.some.injEq] at h; subst h; simp
  next c r _ =>
    have h' : skipSomeDigits (c :: r) = some rest := by simpa [skipSomeDigits] using h
    exact skipSomeDigits_length h'
  next => simp at h

theorem skipFraction_length_le {cs rest : List Char} (h : skipFraction cs = some rest) :
    rest.length ≤ cs.length := by
  unfold skipFraction at h
  split at h
  next r => have := skipSomeDigits_length h; simp only [List.length_cons]; omega
  next => simp only [Option.some.injEq] at h; subst h; exact Nat.le_refl _

theorem skipSign_length_le (cs : List Char) : (skipSign cs).length ≤ cs.length := by
  unfold skipSign; split <;> simp

theorem skipExponent_length_le {cs rest : List Char} (h : skipExponent cs = some rest) :
    rest.length ≤ cs.length := by
  unfold skipExponent at h
  split at h
  next r =>
    have := skipSomeDigits_length h
    have := skipSign_length_le r
    simp only [List.length_cons]
    omega
  next r =>
    have := skipSomeDigits_length h
    have := skipSign_length_le r
    simp only [List.length_cons]
    omega
  next => simp only [Option.some.injEq] at h; subst h; exact Nat.le_refl _

theorem skipNumber_length {cs rest : List Char} (h : skipNumber cs = some rest) :
    rest.length < cs.length := by
  simp only [skipNumber, Option.bind_eq_bind, Option.bind_eq_some_iff] at h
  obtain ⟨a, ha, b, hb, hc⟩ := h
  have h1 := skipWhole_length ha
  have h2 := skipFraction_length_le hb
  have h3 := skipExponent_length_le hc
  have h4 : (match cs with | '-' :: r => r | _ => cs).length ≤ cs.length := by
    split <;> simp
  omega

theorem skipScalar_length {cs rest : List Char} (h : skipScalar cs = some rest) :
    rest.length < cs.length := by
  unfold skipScalar at h
  split at h
  next r =>
    obtain ⟨⟨ps, after⟩, hp, rfl⟩ := Option.map_eq_some_iff.1 h
    have := pieces?_length hp
    simp only [List.length_cons]
    omega
  next => exact skipWord_length h (by simp)
  next => exact skipWord_length h (by simp)
  next => exact skipWord_length h (by simp)
  next => exact skipNumber_length h

theorem takeName_length {cs rest : List Char} {name : List Piece}
    (h : takeName cs = some (name, rest)) : rest.length < cs.length := by
  unfold takeName at h
  have h1 := skipBlanks_length_le cs
  split at h
  next r hr =>
    rw [hr] at h1
    split at h
    next ps after hp =>
      have h2 := pieces?_length hp
      have h3 := skipBlanks_length_le after
      split at h
      next v hv =>
        rw [hv] at h3
        simp only [Option.some.injEq, Prod.mk.injEq] at h
        obtain ⟨-, rfl⟩ := h
        simp only [List.length_cons] at h1 h3
        omega
      next => simp at h
    next => simp at h
  next => simp at h

theorem closing_length_le {opened : List Bracket} {cs : List Char} {p : Progress}
    (h : closing opened cs = some p) : p.rest.length ≤ cs.length := by
  induction opened generalizing cs with
  | nil =>
    simp only [closing, Option.some.injEq] at h
    subst h
    exact Nat.le_refl _
  | cons b outer ih =>
    have h1 := skipBlanks_length_le cs
    cases b with
    | array =>
      simp only [closing] at h
      split at h
      next r hr => rw [hr] at h1; have := ih h; simp only [List.length_cons] at h1; omega
      next r hr =>
        rw [hr] at h1
        simp only [Option.some.injEq] at h
        subst h
        simp only [List.length_cons] at h1
        simp only [Progress.rest]
        omega
      next => simp at h
    | object =>
      simp only [closing] at h
      split at h
      next r hr => rw [hr] at h1; have := ih h; simp only [List.length_cons] at h1; omega
      next r hr =>
        rw [hr] at h1
        obtain ⟨⟨name, v⟩, hn, rfl⟩ := Option.map_eq_some_iff.1 h
        have := takeName_length hn
        simp only [List.length_cons] at h1
        simp only [Progress.rest]
        omega
      next => simp at h

theorem advance_length {opened : List Bracket} {cs : List Char} {p : Progress}
    (h : advance opened cs = some p) : p.rest.length < cs.length := by
  unfold advance at h
  have h1 := skipBlanks_length_le cs
  split at h
  next r hr =>
    rw [hr] at h1
    have h2 := skipBlanks_length_le r
    simp only [List.length_cons] at h1
    split at h
    next after ha =>
      have := closing_length_le h
      rw [ha] at h2
      simp only [List.length_cons] at h2
      omega
    next =>
      simp only [Option.some.injEq] at h
      subst h
      simp only [Progress.rest]
      omega
  next r hr =>
    rw [hr] at h1
    have h2 := skipBlanks_length_le r
    simp only [List.length_cons] at h1
    split at h
    next after ha =>
      have := closing_length_le h
      rw [ha] at h2
      simp only [List.length_cons] at h2
      omega
    next =>
      obtain ⟨⟨name, v⟩, hn, rfl⟩ := Option.map_eq_some_iff.1 h
      have := takeName_length hn
      simp only [Progress.rest]
      omega
  next =>
    obtain ⟨after, ha, hc⟩ := Option.bind_eq_some_iff.1 h
    have := skipScalar_length ha
    have := closing_length_le hc
    omega

end Lengths

/-- What follows the value that starts here and all that is still open around it. -/
def skipValue (opened : List Bracket) (cs : List Char) : Option (List Char) :=
  match _h : advance opened cs with
  | none => none
  | some (.done rest) => some rest
  | some (.value opened' rest) => skipValue opened' rest
termination_by cs.length
decreasing_by exact advance_length ‹_›

theorem skipValue_length {opened : List Bracket} {cs rest : List Char}
    (h : skipValue opened cs = some rest) : rest.length < cs.length := by
  fun_induction skipValue opened cs with
  | case1 => simp at h
  | case2 _ _ _ hp => exact Option.some.inj h ▸ advance_length hp
  | case3 _ _ _ _ hp ih => exact Nat.lt_trans (ih h) (advance_length hp)

end ChatHub.Json
