import ChatHub.Metrics.Exposition
import ChatHub.Proofs.Metrics.Numeral
import Mathlib.Algebra.Order.BigOperators.Group.List
import Mathlib.Algebra.Order.Ring.Nat
import Mathlib.Data.List.Flatten
/-!
How a line with a value is read.  A label value stands between quotes, so a quote, a backslash or
the end of a line in it has to be escaped, and the reader takes the escapes back.  A line gives back
the sample it was written from just if there was nothing to escape.
-/

namespace ChatHub.Metrics

open Text (joinWith)

section Grammar

def isNameChar (c : Char) : Bool := c.isAlphanum || c == '_'

/-- Whether a text is a name: letters, digits and underscores, but no digit in front. -/
def isName (cs : List Char) : Bool :=
  cs.head?.any (fun c => !c.isDigit) && cs.all isNameChar

/-- How a character stands between quotes. -/
def escapeChar (c : Char) : List Char :=
  if c = '"' ∨ c = '\\' then ['\\', c] else if c = '\n' then ['\\', 'n'] else [c]

/-- What an escape stands for, by the character behind the backslash. -/
def unescape? (c : Char) : Option Char :=
  if c = '"' ∨ c = '\\' then some c else if c = 'n' then some '\n' else none

def escape (v : String) : String := String.ofList (v.toList.flatMap escapeChar)

def isSpecial (c : Char) : Bool := c == '"' || c == '\\' || c == '\n'

/-- A label value that has nothing to escape. -/
def IsPlain (v : String) : Prop := ∀ c ∈ v.toList, isSpecial c = false

instance (v : String) : Decidable (IsPlain v) :=
  List.decidableBAll (fun c => isSpecial c = false) v.toList

namespace Sample

/-- The sample with its label values as they should be written. -/
def escaped (s : Sample) : Sample := { s with labels := s.labels.map (Prod.map id escape) }

structure WellFormed (s : Sample) : Prop where
  name : isName s.name.toList = true
  labels : ∀ l ∈ s.labels, isName l.1.toList = true
  value : isNumeral s.value.toList = true

end Sample

end Grammar

section Readers

def readName? (cs : List Char) : Option (String × List Char) :=
  let name := cs.takeWhile isNameChar
  if isName name then some (String.ofList name, cs.dropWhile isNameChar) else none

/-- Reads on to the quote behind a label value; whether a backslash stands before the next character
makes a difference. -/
def readValue? : Bool → List Char → Option (List Char × List Char)
  | _, [] => none
  | true, c :: rest =>
      (unescape? c).bind fun d => (readValue? false rest).map (Prod.map (d :: ·) id)
  | false, c :: rest =>
      if c = '"' then some ([], rest)
      else if c = '\\' then readValue? true rest
      else if c = '\n' then none
      else (readValue? false rest).map (Prod.map (c :: ·) id)

def readLabel? (cs : List Char) : Option ((String × String) × List Char) :=
  match readName? cs with
  | some (name, '=' :: '"' :: rest) =>
      (readValue? false rest).map fun (v, rest) => ((name, String.ofList v), rest)
  | _ => none

variable {cs rest v : List Char} {c : Char} {name : String} {l : String × String}

theorem readName?_append (hname : isName name.toList = true)
    (hrest : ∀ c ∈ rest.head?, isNameChar c = false) :
    readName? (name.toList ++ rest) = some (name, rest) := by
  have hall : ∀ c ∈ name.toList, isNameChar c = true := by
    rw [isName, Bool.and_eq_true] at hname
    exact List.all_eq_true.mp hname.2
  have hdrop : (name.toList ++ rest).dropWhile isNameChar = rest :=
    Text.dropWhile_append_of_forall hall hrest
  have htake : (name.toList ++ rest).takeWhile isNameChar = name.toList := by
    have hsplit := List.takeWhile_append_dropWhile (p := isNameChar) (l := name.toList ++ rest)
    rw [hdrop] at hsplit
    exact List.append_cancel_right hsplit
  rw [readName?, htake, hdrop, if_pos hname, String.ofList_toList]

theorem of_readName? (hread : readName? cs = some (name, rest)) :
    isName name.toList = true ∧ cs = name.toList ++ rest := by
  rw [readName?] at hread
  split at hread
  next hname =>
    cases hread
    rw [String.toList_ofList, List.takeWhile_append_dropWhile]
    exact ⟨hname, rfl⟩
  next => cases hread

theorem escapeChar_of_unescape? {d : Char} (h : unescape? c = some d) :
    escapeChar d = ['\\', c] := by
  rw [unescape?] at h
  split at h
  next hself =>
    cases h
    rw [escapeChar, if_pos hself]
  next =>
    split at h
    next hn =>
      cases h
      rw [hn]
      rfl
    next => cases h

/-- A character is read as it stands between quotes. -/
theorem readValue?_escapeChar (c : Char) (cs : List Char) :
    readValue? false (escapeChar c ++ cs) =
      (readValue? false cs).map (Prod.map (c :: ·) id) := by
  rw [escapeChar]
  split
  next hself =>
    have hcut : '\\' ≠ '"' := by decide
    simp only [List.cons_append, List.nil_append, readValue?, hcut, if_false, if_true, unescape?,
      hself, Option.bind_some]
  next hother =>
    rw [not_or] at hother
    split
    next hn =>
      rw [hn]
      rfl
    next hn =>
      simp only [List.cons_append, List.nil_append, readValue?, hother.1, hother.2, hn, if_false]

theorem readValue?_eq_some :
    readValue? false cs = some (v, rest) ↔ cs = v.flatMap escapeChar ++ '"' :: rest := by
  constructor
  · -- behind a backslash the text that is read starts one character further to the front
    have hread (behind : Bool) (cs v : List Char)
        (hsome : readValue? behind cs = some (v, rest)) :
        (if behind then '\\' :: cs else cs) = v.flatMap escapeChar ++ '"' :: rest := by
      fun_induction readValue? behind cs generalizing v with
      | case1 => cases hsome
      | case2 c cs ih =>
        obtain ⟨d, hd, hmap⟩ := Option.bind_eq_some_iff.mp hsome
        obtain ⟨⟨w, rest'⟩, hw, heq⟩ := Option.map_eq_some_iff.mp hmap
        cases heq
        have hcs := ih w hw
        rw [if_neg Bool.false_ne_true] at hcs
        simp only [if_true, List.flatMap_cons, escapeChar_of_unescape? hd, hcs]
        rfl
      | case3 cs =>
        cases hsome
        rfl
      | case4 cs _ ih => exact ih v hsome
      | case5 => cases hsome
      | case6 c cs hquote hslash hline ih =>
        obtain ⟨⟨w, rest'⟩, hw, heq⟩ := Option.map_eq_some_iff.mp hsome
        cases heq
        have hcs := ih w hw
        have hplain : escapeChar c = [c] := by
          rw [escapeChar, if_neg (not_or.mpr ⟨hquote, hslash⟩), if_neg hline]
        rw [if_neg Bool.false_ne_true] at hcs
        simp only [Bool.false_eq_true, if_false, List.flatMap_cons, hplain, hcs]
        rfl
    exact hread false cs v
  · rintro rfl
    induction v with
    | nil => rfl
    | cons c v ih => rw [List.flatMap_cons, List.append_assoc, readValue?_escapeChar, ih]; rfl

/-- A label as it should be written. -/
def labelText (l : String × String) : List Char := (writeLabel (l.1, escape l.2)).toList

theorem labelText_eq (l : String × String) :
    labelText l = l.1.toList ++ '=' :: '"' :: (l.2.toList.flatMap escapeChar ++ ['"']) := by
  simp [labelText, writeLabel, escape]

theorem readLabel?_eq_some :
    readLabel? cs = some (l, rest) ↔ isName l.1.toList = true ∧ cs = labelText l ++ rest := by
  rw [labelText_eq]
  constructor
  · intro hread
    rw [readLabel?] at hread
    split at hread
    next name ds hname =>
      obtain ⟨⟨v, rest'⟩, hv, heq⟩ := Option.map_eq_some_iff.mp hread
      cases heq
      obtain ⟨hisname, rfl⟩ := of_readName? hname
      rw [readValue?_eq_some] at hv
      refine ⟨hisname, ?_⟩
      simp [hv]
    next => cases hread
  · rintro ⟨hname, rfl⟩
    have hstop : ∀ ds : List Char, ∀ c ∈ ('=' :: ds).head?, isNameChar c = false := by
      rintro ds c ⟨⟩
      rfl
    have hv : readValue? false (l.2.toList.flatMap escapeChar ++ '"' :: rest) =
        some (l.2.toList, rest) := readValue?_eq_some.mpr rfl
    simp only [List.append_assoc, List.cons_append, List.nil_append, readLabel?,
      readName?_append hname (hstop _), hv, Option.map_some, String.ofList_toList]

theorem length_lt_of_readLabel? {d : Char} (hread : readLabel? cs = some (l, d :: rest)) :
    rest.length < cs.length := by
  rw [(readLabel?_eq_some.mp hread).2, List.length_append, List.length_cons]
  omega

/-- Reads labels with commas between them, and the brace behind the last. -/
def readLabels? (cs : List Char) : Option (List (String × String) × List Char) :=
  match hread : readLabel? cs with
  | some (l, '\x7d' :: rest) => some ([l], rest)
  | some (l, ',' :: rest) =>
      have := length_lt_of_readLabel? hread
      (readLabels? rest).map (Prod.map (l :: ·) id)
  | _ => none
termination_by cs.length

/-- Reads a line with a value. -/
def Sample.read? (line : List Char) : Option Sample :=
  match readName? line with
  | some (name, ' ' :: value) =>
      if isNumeral value then some ⟨name, [], String.ofList value⟩ else none
  | some (name, '\x7b' :: rest) =>
      match readLabels? rest with
      | some (labels, ' ' :: value) =>
          if isNumeral value then some ⟨name, labels, String.ofList value⟩ else none
      | _ => none
  | _ => none

variable {ls : List (String × String)}

theorem readLabels?_of_brace (hlabel : readLabel? cs = some (l, '\x7d' :: rest)) :
    readLabels? cs = some ([l], rest) := by
  rw [readLabels?]
  split
  next hsome => rw [hlabel] at hsome; cases hsome; rfl
  next hsome => rw [hlabel] at hsome; cases hsome
  next hbrace _ => exact absurd hlabel (hbrace _ _)

theorem readLabels?_of_comma (hlabel : readLabel? cs = some (l, ',' :: rest)) :
    readLabels? cs = (readLabels? rest).map (Prod.map (l :: ·) id) := by
  rw [readLabels?]
  split
  next hsome => rw [hlabel] at hsome; cases hsome
  next hsome => rw [hlabel] at hsome; cases hsome; rfl
  next hcomma => exact absurd hlabel (hcomma _ _)

theorem readLabels?_of_other (hlabel : readLabel? cs = some (l, c :: rest))
    (hc : c ≠ '\x7d' ∧ c ≠ ',') : readLabels? cs = none := by
  rw [readLabels?]
  split
  next hsome => rw [hlabel] at hsome; cases hsome; exact absurd rfl hc.1
  next hsome => rw [hlabel] at hsome; cases hsome; exact absurd rfl hc.2
  next => rfl

theorem of_readLabels? (hread : readLabels? cs = some (ls, rest)) :
    ls ≠ [] ∧ (∀ l ∈ ls, isName l.1.toList = true) ∧
      cs = joinWith ',' (ls.map labelText) ++ '\x7d' :: rest := by
  fun_induction readLabels? cs generalizing ls with
  | case1 cs l rest' hlabel =>
    cases hread
    obtain ⟨hname, hcs⟩ := readLabel?_eq_some.mp hlabel
    refine ⟨List.cons_ne_nil _ _, ?_, hcs⟩
    simpa using hname
  | case2 cs l rest' hlabel _ ih =>
    obtain ⟨⟨ls', rest''⟩, hmore, heq⟩ := Option.map_eq_some_iff.mp hread
    cases heq
    obtain ⟨hname, hcs⟩ := readLabel?_eq_some.mp hlabel
    obtain ⟨hne, hnames, hrest⟩ := ih hmore
    refine ⟨List.cons_ne_nil _ _, List.forall_mem_cons.mpr ⟨hname, hnames⟩, ?_⟩
    rw [List.map_cons, Text.joinWith_cons (by simpa using hne), hcs, hrest, List.append_assoc]
    rfl
  | case3 => cases hread

theorem readLabels?_joinWith (hne : ls ≠ []) (hnames : ∀ l ∈ ls, isName l.1.toList = true)
    (rest : List Char) :
    readLabels? (joinWith ',' (ls.map labelText) ++ '\x7d' :: rest) = some (ls, rest) := by
  induction ls with
  | nil => exact absurd rfl hne
  | cons l ls ih =>
    obtain ⟨hname, hnames⟩ := List.forall_mem_cons.mp hnames
    cases ls with
    | nil => exact readLabels?_of_brace (readLabel?_eq_some.mpr ⟨hname, rfl⟩)
    | cons l' ls =>
      have hmore := ih (List.cons_ne_nil l' ls) hnames
      rw [List.map_cons, Text.joinWith_cons (by simp), List.append_assoc, List.cons_append,
        readLabels?_of_comma (readLabel?_eq_some.mpr ⟨hname, rfl⟩), hmore]
      rfl

theorem Sample.toList_write (s : Sample) : s.write.toList =
    s.name.toList ++ ((if s.labels = [] then []
      else '\x7b' :: (joinWith ',' (s.labels.map fun l => (writeLabel l).toList) ++ ['\x7d'])) ++
        ' ' :: s.value.toList) := by
  have hjoin (parts : List (List Char)) : [','].intercalate parts = joinWith ',' parts := by
    induction parts with
    | nil => rfl
    | cons part parts ih =>
      cases parts with
      | nil => simp [joinWith]
      | cons p ps => rw [Text.joinWith_cons (by simp), ← ih]; simp [List.intercalate]
  rw [write]
  by_cases hnone : s.labels = []
  · simp [hnone]
  · simp [hnone, String.toList_intercalate, hjoin, Function.comp_def]

end Readers

namespace Sample

variable {s s' : Sample} {line : List Char}

theorem toList_write_escaped (s : Sample) : s.escaped.write.toList =
    s.name.toList ++ ((if s.labels = [] then []
      else '\x7b' :: (joinWith ',' (s.labels.map labelText) ++ ['\x7d'])) ++
        ' ' :: s.value.toList) := by
  have htexts : (s.labels.map (Prod.map id escape)).map (fun l => (writeLabel l).toList) =
      s.labels.map labelText := List.map_map
  simp only [toList_write, escaped, htexts, List.map_eq_nil_iff]

theorem of_read? (hread : read? line = some s) :
    s.WellFormed ∧ line = s.escaped.write.toList := by
  rw [toList_write_escaped]
  rw [read?] at hread
  split at hread
  next name value hname =>
    split at hread
    next hvalue =>
      cases hread
      obtain ⟨hisname, rfl⟩ := of_readName? hname
      refine ⟨⟨hisname, nofun, by rwa [String.toList_ofList]⟩, ?_⟩
      rw [if_pos rfl, String.toList_ofList]
      rfl
    next => cases hread
  next name rest hname =>
    split at hread
    next labels value hlabels =>
      split at hread
      next hvalue =>
        cases hread
        obtain ⟨hisname, rfl⟩ := of_readName? hname
        obtain ⟨hne, hnames, rfl⟩ := of_readLabels? hlabels
        refine ⟨⟨hisname, hnames, by rwa [String.toList_ofList]⟩, ?_⟩
        rw [if_neg hne, String.toList_ofList]
        simp
      next => cases hread
    next => cases hread
  next => cases hread

theorem read?_of_wellFormed (hs : s.WellFormed) : read? s.escaped.write.toList = some s := by
  have hname (c : Char) (hc : isNameChar c = false) (rest : List Char) :
      readName? (s.name.toList ++ c :: rest) = some (s.name, c :: rest) := by
    apply readName?_append hs.name
    rintro d ⟨⟩
    exact hc
  rw [toList_write_escaped, read?]
  by_cases hnone : s.labels = []
  · rw [if_pos hnone, List.nil_append, hname ' ' rfl]
    simp only [hs.value, if_true, String.ofList_toList, ← hnone]
  · rw [if_neg hnone, List.cons_append, hname '\x7b' rfl, List.append_assoc, List.singleton_append]
    simp only [readLabels?_joinWith hnone hs.labels, hs.value, if_true, String.ofList_toList]

/-- The lines that can be read are those in which all is escaped that has to be, and each is read as
the sample that it is made from. -/
theorem read?_eq_some : read? line = some s ↔ s.WellFormed ∧ line = s.escaped.write.toList := by
  constructor
  · exact of_read?
  · rintro ⟨hs, rfl⟩
    exact read?_of_wellFormed hs

end Sample

section Plain

variable {v : String} {cs : List Char} {s : Sample}

theorem escapeChar_of_not_isSpecial {c : Char} (hc : isSpecial c = false) : escapeChar c = [c] := by
  simp only [isSpecial, Bool.or_eq_false_iff, beq_eq_false_iff_ne] at hc
  rw [escapeChar, if_neg (not_or.mpr hc.1), if_neg hc.2]

/-- A value is plain if it is made of characters of a kind to which no special one belongs. -/
theorem isPlain_of_forall {p : Char → Bool} (hquote : p '"' = false) (hslash : p '\\' = false)
    (hline : p '\n' = false) (hv : ∀ c ∈ v.toList, p c = true) : IsPlain v := by
  intro c hc
  have hchar := hv c hc
  rw [Bool.eq_false_iff, isSpecial]
  intro hspecial
  rw [Bool.or_eq_true, Bool.or_eq_true, beq_iff_eq, beq_iff_eq, beq_iff_eq] at hspecial
  rcases hspecial with (rfl | rfl) | rfl
  · exact Bool.false_ne_true (hquote.symm.trans hchar)
  · exact Bool.false_ne_true (hslash.symm.trans hchar)
  · exact Bool.false_ne_true (hline.symm.trans hchar)

theorem escape_of_isPlain (hv : IsPlain v) : escape v = v := by
  have hchars : v.toList.flatMap escapeChar = v.toList := by
    rw [List.flatMap_congr fun c hc => escapeChar_of_not_isSpecial (hv c hc)]
    exact List.flatMap_singleton' _
  rw [escape, hchars, String.ofList_toList]

theorem Sample.escaped_of_isPlain (hs : ∀ l ∈ s.labels, IsPlain l.2) : s.escaped = s := by
  have hlabels : s.labels.map (Prod.map id escape) = s.labels := by
    have hsame : ∀ l ∈ s.labels, Prod.map id escape l = id l :=
      fun l hl => Prod.ext rfl (escape_of_isPlain (hs l hl))
    rw [List.map_congr_left hsame, List.map_id]
  rw [escaped, hlabels]

/-- Each escape makes a text longer by one character. -/
theorem length_flatMap_escapeChar (cs : List Char) :
    (cs.flatMap escapeChar).length = cs.length + cs.countP isSpecial := by
  induction cs with
  | nil => rfl
  | cons c cs ih =>
    have hlength : (escapeChar c).length = 1 + if isSpecial c = true then 1 else 0 := by
      rw [escapeChar, isSpecial]
      by_cases hself : c = '"' ∨ c = '\\'
      · simp [hself]
      · by_cases hline : c = '\n'
        · simp [hline]
        · simp [hline, not_or.mp hself]
    rw [List.flatMap_cons, List.length_append, hlength, ih, List.countP_cons, List.length_cons]
    omega

theorem length_labelText (l : String × String) :
    (labelText l).length = (writeLabel l).toList.length + l.2.toList.countP isSpecial := by
  simp only [labelText_eq, writeLabel, String.toList_append, List.length_append, List.length_cons,
    length_flatMap_escapeChar]
  simp only [String.reduceToList, List.length_cons, List.length_nil]
  omega

theorem length_joinWith_map {α : Type} {f g : α → List Char} {n : α → Nat}
    (h : ∀ a, (g a).length = (f a).length + n a) (as : List α) :
    (joinWith ',' (as.map g)).length = (joinWith ',' (as.map f)).length + (as.map n).sum := by
  induction as with
  | nil => rfl
  | cons a as ih =>
    cases as with
    | nil => simp [joinWith, h]
    | cons a' as =>
      have hcons (f : α → List Char) : joinWith ',' ((a :: a' :: as).map f) =
          f a ++ ',' :: joinWith ',' ((a' :: as).map f) := rfl
      rw [hcons, hcons, List.length_append, List.length_append, List.length_cons, List.length_cons,
        h, ih, List.map_cons (a := a), List.sum_cons]
      omega

/-- A line gives back its sample just if it has nothing to escape. -/
theorem Sample.read?_write_iff (hs : s.WellFormed) :
    read? s.write.toList = some s ↔ ∀ l ∈ s.labels, IsPlain l.2 := by
  rw [read?_eq_some]
  constructor
  · rintro ⟨-, hsame⟩ l hl
    have hlength := congrArg List.length hsame
    rw [toList_write, toList_write_escaped] at hlength
    rw [if_neg (List.ne_nil_of_mem hl), if_neg (List.ne_nil_of_mem hl)] at hlength
    simp only [List.length_append, List.length_cons,
      length_joinWith_map length_labelText s.labels] at hlength
    have hsum : (s.labels.map fun l => l.2.toList.countP isSpecial).sum = 0 := by omega
    have hnone := List.sum_eq_zero_iff.mp hsum _ (List.mem_map_of_mem hl)
    simpa [IsPlain] using hnone
  · intro hplain
    rw [escaped_of_isPlain hplain]
    exact ⟨hs, rfl⟩

end Plain

end ChatHub.Metrics
