import ChatHub.Json.Writer
import ChatHub.Proofs.Json.Record
import Mathlib.Data.List.Forall2
/-!
What is written is JSON, and the readers find in it what was written.
-/

namespace ChatHub.Json

section Literal

/-- The two digits of a control character spell its code. -/
theorem hexUnit?_control {n : Nat} (hn : n < 32) :
    hexUnit? '0' '0' (lowerHexDigit (n / 16)) (lowerHexDigit (n % 16)) = some n := by
  have hall : ∀ n < 32,
      hexUnit? '0' '0' (lowerHexDigit (n / 16)) (lowerHexDigit (n % 16)) = some n := by decide
  exact hall n hn

/-- However a character is written, it comes back. -/
theorem exists_spells_escape (c : Char) {ps : List Piece} {body cs : List Char}
    (hbody : Spells ps body) (hcs : Denotes ps cs) :
    ∃ qs, Spells qs (escape c ++ body) ∧ Denotes qs (c :: cs) := by
  unfold escape
  split
  case h_8 hquote hslash _ _ _ _ _ =>
    split
    next hcontrol =>
      have hn : c.toNat < 32 := hcontrol
      have hdenotes : Denotes (.unit c.toNat :: ps) (Char.ofNat c.toNat :: cs) := by
        refine .unit ?_ ?_ hcs
        · simp only [isLead, Bool.and_eq_false_iff, decide_eq_false_iff_not]
          omega
        · simp only [isTrail, Bool.and_eq_false_iff, decide_eq_false_iff_not]
          omega
      rw [Char.ofNat_toNat] at hdenotes
      exact ⟨_, .unit (hexUnit?_control hn) hbody, hdenotes⟩
    next hcontrol => exact ⟨_, .verbatim hquote hslash hcontrol hbody, .plain c hcs⟩
  all_goals exact ⟨_, .short rfl hbody, .plain _ hcs⟩

theorem exists_spells (cs : List Char) : ∃ ps, Spells ps (cs.flatMap escape) ∧ Denotes ps cs := by
  induction cs with
  | nil => exact ⟨[], .nil, .nil⟩
  | cons c cs ih =>
    obtain ⟨ps, hbody, hcs⟩ := ih
    exact exists_spells_escape c hbody hcs

theorem isString_quote (s : String) : Raw.IsString ⟨quote s⟩ s := by
  obtain ⟨ps, hbody, hs⟩ := exists_spells s.toList
  exact ⟨ps, (Shape.Describes.string hbody).of, hs⟩

@[simp] theorem isValue_quote (s : String) : IsValue (quote s) := by
  obtain ⟨ps, hbody, _⟩ := exists_spells s.toList
  exact .string hbody

@[simp] theorem isValue_bool (b : Bool) : IsValue (bool b) := .bool b

theorem isBool_bool (b : Bool) : Raw.IsBool ⟨bool b⟩ b := (Shape.Describes.bool b).of

end Literal

section Enclosed

variable {α : Type} {item : α → List Char → Prop} {as : List α} {ts : List (List Char)}

theorem row_commas (hts : List.Forall₂ item as ts) (hne : as ≠ []) : Row item as (commas ts) := by
  induction hts with
  | nil => exact absurd rfl hne
  | @cons a t as ts ha hts ih =>
    cases hts with
    | nil => exact .last ha
    | cons hb hrest => exact .more ha (ih (List.cons_ne_nil _ _))

theorem encloses_commas (left right : Char) (hts : List.Forall₂ item as ts) :
    Encloses item left right as (left :: (commas ts ++ [right])) := by
  cases hts with
  | nil => exact .empty isGap_nil
  | cons ha hrest => exact .filled (row_commas (.cons ha hrest) (List.cons_ne_nil _ _))

theorem item_self (v : Raw) : Item v v.text :=
  ⟨[], [], isGap_nil, isGap_nil, by rw [List.nil_append, List.append_nil]⟩

end Enclosed

section Array

variable {ts : List (List Char)}

theorem describes_array (hts : ∀ t ∈ ts, IsValue t) :
    (Shape.array (ts.map Raw.mk)).Describes (array ts) := by
  refine .array (List.forall_mem_map.mpr hts) (encloses_commas '[' ']' ?_)
  rw [List.forall₂_map_left_iff]
  exact List.forall₂_same.mpr fun t _ => item_self ⟨t⟩

theorem list?_array {α : Type} {read : Raw → Option α} {write : α → List Char} (as : List α)
    (hvalue : ∀ a, IsValue (write a)) (hread : ∀ a, read ⟨write a⟩ = some a) :
    Raw.list? read ⟨array (as.map write)⟩ = some as := by
  have hshape := (describes_array (List.forall_mem_map.mpr fun a (_ : a ∈ as) => hvalue a)).of
  have hitems : ((as.map write).map Raw.mk).mapM read = some as := by
    induction as with
    | nil => rfl
    | cons a as ih =>
      have hrest := ih (describes_array (List.forall_mem_map.mpr fun a _ => hvalue a)).of
      simp only [List.map_cons, List.mapM_cons, hread, hrest, Option.bind_eq_bind,
        Option.bind_some, Option.pure_def]
  simp only [Raw.list?, Raw.shape?, Shape.ofText?_eq_some.mpr hshape, hitems]

@[simp] theorem isValue_quotes (ss : List String) : IsValue (array (ss.map quote)) :=
  (describes_array (List.forall_mem_map.mpr fun s _ => isValue_quote s)).isValue

end Array

section Object

variable {ms : List (String × List Char)}

/-- What a written object gives to a reader: each name with the text of its value. -/
def written (ms : List (String × List Char)) : List (String × Raw) := ms.map fun m => (m.1, ⟨m.2⟩)

theorem exists_known (skips : List Piece → Prop) {names : List String}
    (hvalues : ∀ m ∈ ms, IsValue m.2) (hnames : ∀ m ∈ ms, m.1 ∈ names) :
    ∃ members, Record.Known skips names members (written ms) ∧
      (∀ m ∈ members, IsValue m.2.text) ∧
      List.Forall₂ Member members (ms.map fun (name, value) => member name value) := by
  induction ms with
  | nil => exact ⟨[], .nil, by simp, .nil⟩
  | cons m ms ih =>
    obtain ⟨name, value⟩ := m
    obtain ⟨hvalue, hvalues⟩ := List.forall_mem_cons.mp hvalues
    obtain ⟨hname, hnames⟩ := List.forall_mem_cons.mp hnames
    obtain ⟨members, hknown, hall, htexts⟩ := ih hvalues hnames
    obtain ⟨ps, hbody, hps⟩ := exists_spells name.toList
    refine ⟨(ps, ⟨value⟩) :: members, .field ⟨value⟩ hps hname hknown,
      List.forall_mem_cons.mpr ⟨hvalue, hall⟩, .cons ?_ htexts⟩
    refine ⟨[], _, [], value, isGap_nil, hbody, isGap_nil, item_self ⟨value⟩, ?_⟩
    simp only [member, quote, List.nil_append, List.cons_append, List.append_assoc]

theorem isValue_object (hvalues : ∀ m ∈ ms, IsValue m.2) : IsValue (object ms) := by
  obtain ⟨members, _, hall, htexts⟩ := exists_known (fun _ => True) hvalues
    fun m hm => List.mem_map_of_mem (f := Prod.fst) hm
  exact .object hall (encloses_commas _ _ htexts)

/-- A written object gives its members to a reader who knows their names. -/
theorem given_object (skips : List Piece → Prop) {names : List String}
    (hvalues : ∀ m ∈ ms, IsValue m.2) (hnames : ∀ m ∈ ms, m.1 ∈ names)
    (honce : (ms.map Prod.fst).Nodup) :
    Record.Given skips names (object ms) ⟨written ms, false⟩ := by
  obtain ⟨members, hknown, hall, htexts⟩ := exists_known skips hvalues hnames
  refine .object (Shape.Describes.object hall (encloses_commas _ _ htexts)).of hknown ?_
  rw [written, List.map_map]
  exact honce

end Object

section Optional

theorem Shape.Describes.eq_null {cs : List Char} (h : Shape.null.Describes cs) :
    cs = Json.null := by
  cases h
  rfl

/-- A value that is not `null`, or no value. -/
def Proper (p : Option Raw) : Prop := ∀ v, p = some v → IsValue v.text ∧ v.text ≠ null

variable {p : Option Raw}

theorem isValue_optional (hp : Proper p) : IsValue (optional raw p) := by
  cases p with
  | none => exact .null
  | some v => exact (hp v rfl).1

theorem isNullable_optional (hp : Proper p) : Raw.IsNullable ⟨optional raw p⟩ p := by
  cases p with
  | none => exact Or.inl ⟨Shape.Describes.null.of, rfl⟩
  | some v =>
    obtain ⟨hv, hne⟩ := hp v rfl
    exact Or.inr ⟨fun hnull => hne (hnull.describes hv).eq_null, rfl⟩

end Optional

section Reading

variable {ms : List (String × List Char)} {names : List String}

@[simp] theorem string?_quote (s : String) : Raw.string? ⟨quote s⟩ = some s :=
  Raw.string?_eq_some.mpr (isString_quote s)

@[simp] theorem bool?_bool (b : Bool) : Raw.bool? ⟨bool b⟩ = some b :=
  Raw.bool?_eq_some.mpr (isBool_bool b)

@[simp] theorem list?_quotes (ss : List String) :
    Raw.list? Raw.string? ⟨array (ss.map quote)⟩ = some ss :=
  list?_array ss isValue_quote string?_quote

theorem case?_quote (s : String) : Raw.case? ⟨quote s⟩ = some s := by
  obtain ⟨ps, hshape, hs⟩ := isString_quote s
  simp only [Raw.case?, Raw.caseWith?, Raw.shape?, Shape.ofText?_eq_some.mpr hshape,
    text?_eq_some.mpr hs, Option.map_some, String.ofList_toList]

@[simp] theorem Record.ofText?_object (hvalues : ∀ m ∈ ms, IsValue m.2)
    (hnames : ∀ m ∈ ms, m.1 ∈ names) (honce : (ms.map Prod.fst).Nodup) :
    Record.ofText? names (object ms) = some ⟨written ms, false⟩ :=
  Record.ofText?_eq_some.mpr (given_object Readable hvalues hnames honce)

@[simp] theorem Record.get?_written (positional : Bool) (name : String) :
    Record.get? ⟨written ms, positional⟩ name = (ms.lookup name).map Raw.mk := by
  rw [Record.get?, written]
  induction ms with
  | nil => rfl
  | cons m ms ih =>
    rw [List.map_cons, List.lookup_cons, List.lookup_cons]
    cases name == m.1 with
    | true => rfl
    | false => exact ih

end Reading

end ChatHub.Json
