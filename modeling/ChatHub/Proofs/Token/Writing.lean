import ChatHub.Proofs.Json.Writing
import ChatHub.Proofs.Token.Contents
/-!
The parts of a token as they are written: JSON turned into bytes.  Bytes of seven bits stand for
themselves; all others come from characters inside of literals, and a reader puts the texts together
from them again.
-/

namespace ChatHub.Json

theorem head_toDigits_ne_zero {n : Nat} (hn : 0 < n) : (Nat.toDigits 10 n).head? ≠ some '0' := by
  induction n using Nat.strongRecOn with
  | ind n ih =>
    rw [Nat.toDigits_eq_if (by decide)]
    split
    next hsmall =>
      have hall : ∀ d < 10, 0 < d → [Nat.digitChar d].head? ≠ some '0' := by decide
      exact hall n hsmall hn
    next hlarge =>
      rw [List.head?_append_of_ne_nil _ Nat.toDigits_ne_nil]
      exact ih (n / 10) (by omega) (by omega)

theorem isNumber_nat (n : Nat) : IsNumber (nat n) := by
  have hdigits : IsDigits (nat n) :=
    ⟨Nat.toDigits_ne_nil, fun d hd => Nat.isDigit_of_mem_toDigits (by decide) (by decide) hd⟩
  have hwhole : IsWhole (nat n) := by
    rcases Nat.eq_zero_or_pos n with rfl | hn
    · exact Or.inl rfl
    · exact Or.inr ⟨hdigits, head_toDigits_ne_zero hn⟩
  exact ⟨[], nat n, [], [], Or.inl rfl, hwhole, Or.inl rfl, Or.inl rfl, by simp⟩

theorem decimal_nat (n : Nat) : Raw.decimal (nat n) = n := by
  have hread : Nat.ofDigitChars 10 (nat n) 0 = n := Nat.ofDigitChars_ten_toDigits
  rw [Nat.ofDigitChars_eq_foldl] at hread
  simpa only [Raw.decimal, Nat.mul_comm 10] using hread

end ChatHub.Json

namespace ChatHub.Token

open Json (Piece Raw Record Shape IsValue Spells)

/-- The bytes of a text, as they are read. -/
def Part.ofText (cs : List Char) : Part := .ofBytes (cs.flatMap Text.bytesOf)

section OfText

variable {cs ds : List Char}

theorem ofText_append (cs ds : List Char) :
    Part.ofText (cs ++ ds) = Part.ofText cs ++ Part.ofText ds := by
  simp [Part.ofText, Part.ofBytes]

theorem ofText_of_ascii (hcs : ∀ c ∈ cs, c.toNat < 0x80) : Part.ofText cs = cs := by
  induction cs with
  | nil => rfl
  | cons c cs ih =>
    obtain ⟨hc, hcs⟩ := List.forall_mem_cons.mp hcs
    have hbyte : c.toNat.toUInt8.toNat = c.toNat := Nat.mod_eq_of_lt (by omega)
    have hfirst : Part.ofText [c] = [c] := by
      simp only [Part.ofText, Part.ofBytes, List.flatMap_cons, List.flatMap_nil, List.append_nil,
        Text.bytesOf_of_lt hc, List.map_cons, List.map_nil, hbyte, Char.ofNat_toNat]
    rw [← List.singleton_append, ofText_append, hfirst, ih hcs]

theorem ofText_cons_of_ascii {c : Char} (hc : c.toNat < 0x80) (cs : List Char) :
    Part.ofText (c :: cs) = c :: Part.ofText cs := by
  have hfirst : Part.ofText [c] = [c] := ofText_of_ascii (by simpa using hc)
  rw [← List.singleton_append, ofText_append, hfirst, List.singleton_append]

end OfText

section Literal

variable {ps : List Piece} {body : List Char} {bytes : List UInt8}

/-- Bytes of eight bits stand for themselves in a literal. -/
theorem exists_spells_high {high : List UInt8} (hhigh : ∀ b ∈ high, 0x80 ≤ b.toNat)
    (hbody : Spells ps body) (hbytes : Yields ps bytes) :
    ∃ qs, Spells qs (Part.ofBytes high ++ body) ∧ Yields qs (high ++ bytes) := by
  induction high with
  | nil => exact ⟨ps, hbody, hbytes⟩
  | cons b high ih =>
    obtain ⟨hb, hhigh⟩ := List.forall_mem_cons.mp hhigh
    obtain ⟨qs, hspells, hyields⟩ := ih hhigh
    have hsmall : b.toNat < 256 := b.toNat_lt
    have hvalid : b.toNat.isValidChar := Or.inl (by omega)
    have hcode : (Char.ofNat b.toNat).toNat = b.toNat := by
      rw [Char.ofNat, dif_pos hvalid]
      rfl
    have hback : (Char.ofNat b.toNat).toNat.toUInt8 = b := by
      rw [hcode]
      exact UInt8.ofNat_toNat
    have hne {c : Char} (hc : c.toNat < 0x80) : Char.ofNat b.toNat ≠ c := by
      rintro rfl
      omega
    have hyield := Yields.plain (Char.ofNat b.toNat) hyields
    rw [hback] at hyield
    refine ⟨_, .verbatim (hne (by decide)) (hne (by decide)) ?_ hspells, hyield⟩
    intro hcontrol
    have hlow : (Char.ofNat b.toNat).toNat < 32 := hcontrol
    omega

/-- However a character is written, its bytes come back. -/
theorem exists_spells_ofText_escape (c : Char) (hbody : Spells ps body) (hbytes : Yields ps bytes) :
    ∃ qs, Spells qs (Part.ofText (Json.escape c) ++ body) ∧
      Yields qs (Text.bytesOf c ++ bytes) := by
  have hshort {e c : Char} (he : e.toNat < 0x80) (hc : c.toNat < 0x80)
      (hescape : Json.shortEscape? e = some c) :
      ∃ qs, Spells qs (Part.ofText ['\\', e] ++ body) ∧ Yields qs (Text.bytesOf c ++ bytes) := by
    rw [ofText_cons_of_ascii (by decide), ofText_cons_of_ascii he, Text.bytesOf_of_lt hc]
    exact ⟨_, .short hescape hbody, .plain c hbytes⟩
  unfold Json.escape
  split
  case h_8 hquote hslash _ _ _ _ _ =>
    split
    next hcontrol =>
      have hn : c.toNat < 32 := hcontrol
      have hunit := Json.hexUnit?_control hn
      have hyields : Yields (.unit c.toNat :: ps) (Text.bytesOf (Char.ofNat c.toNat) ++ bytes) := by
        refine .unit ?_ ?_ hbytes
        · simp only [Json.isLead, Bool.and_eq_false_iff, decide_eq_false_iff_not]
          omega
        · simp only [Json.isTrail, Bool.and_eq_false_iff, decide_eq_false_iff_not]
          omega
      rw [Char.ofNat_toNat] at hyields
      have hdigit : ∀ n < 16, (Json.lowerHexDigit n).toNat < 0x80 := by decide
      have hascii : ∀ d ∈ ['\\', 'u', '0', '0', Json.lowerHexDigit (c.toNat / 16),
          Json.lowerHexDigit (c.toNat % 16)], d.toNat < 0x80 := by
        simp only [List.forall_mem_cons]
        exact ⟨by decide, by decide, by decide, by decide, hdigit _ (by omega),
          hdigit _ (by omega), List.forall_mem_nil _⟩
      rw [ofText_of_ascii hascii]
      exact ⟨_, .unit hunit hbody, hyields⟩
    next hcontrol =>
      rcases Nat.lt_or_ge c.toNat 0x80 with hlow | hhigh
      · rw [ofText_cons_of_ascii hlow, Text.bytesOf_of_lt hlow]
        exact ⟨_, .verbatim hquote hslash hcontrol hbody, .plain c hbytes⟩
      · have hall : ∀ b ∈ Text.bytesOf c, 0x80 ≤ b.toNat := fun b => Text.le_of_mem_bytesOf hhigh
        have hone : Part.ofText [c] = .ofBytes (Text.bytesOf c) := by
          rw [Part.ofText, List.flatMap_cons, List.flatMap_nil, List.append_nil]
        rw [hone]
        exact exists_spells_high hall hbody hbytes
  all_goals exact hshort (by decide) (by decide) rfl

theorem exists_spells_ofText (cs : List Char) :
    ∃ ps, Spells ps (Part.ofText (cs.flatMap Json.escape)) ∧ Tells ps cs := by
  induction cs with
  | nil => exact ⟨[], .nil, .nil⟩
  | cons c cs ih =>
    obtain ⟨ps, hbody, hbytes⟩ := ih
    rw [List.flatMap_cons, ofText_append]
    exact exists_spells_ofText_escape c hbody hbytes

end Literal

/-! ## Values -/

theorem ofText_quote (s : String) : Part.ofText (Json.quote s) =
    '"' :: (Part.ofText (s.toList.flatMap Json.escape) ++ ['"']) := by
  rw [Json.quote, ofText_cons_of_ascii (by decide), ofText_append,
    ofText_of_ascii (List.forall_mem_singleton.mpr (by decide))]

theorem isText_quote (s : String) : IsText ⟨Part.ofText (Json.quote s)⟩ s := by
  obtain ⟨ps, hbody, hs⟩ := exists_spells_ofText s.toList
  refine ⟨ps, ?_, hs⟩
  rw [ofText_quote]
  exact (Shape.Describes.string hbody).of

theorem isValue_ofText_quote (s : String) : IsValue (Part.ofText (Json.quote s)) := by
  obtain ⟨ps, hbody, _⟩ := exists_spells_ofText s.toList
  rw [ofText_quote]
  exact .string hbody

theorem ofText_bool (b : Bool) : Part.ofText (Json.bool b) = Json.bool b := by
  cases b with
  | false => rfl
  | true => rfl

theorem ofText_nat (n : Nat) : Part.ofText (Json.nat n) = Json.nat n := by
  refine ofText_of_ascii fun d hd => ?_
  have hdigit : d.isDigit = true := Nat.isDigit_of_mem_toDigits (by decide) (by decide) hd
  have hnine : d.toNat ≤ 57 := by
    rw [Char.isDigit, Bool.and_eq_true, decide_eq_true_eq, decide_eq_true_eq] at hdigit
    exact hdigit.2
  omega

theorem isWord_nat {n : Nat} (hn : n < UInt64.size) : IsWord ⟨Part.ofText (Json.nat n)⟩ n := by
  rw [ofText_nat]
  refine ⟨Json.nat n, (Shape.Describes.number (Json.isNumber_nat n)).of, fun d hd => ?_,
    Json.decimal_nat n, hn⟩
  exact Nat.isDigit_of_mem_toDigits (by decide) (by decide) hd

/-! ## Objects -/

section Object

variable {ms : List (String × List Char)} (names : List String)

theorem ofText_commas (ts : List (List Char)) :
    Part.ofText (Json.commas ts) = Json.commas (ts.map Part.ofText) := by
  induction ts with
  | nil => rfl
  | cons t ts ih =>
    cases ts with
    | nil => rfl
    | cons u ts =>
      rw [Json.commas, ofText_append, ofText_cons_of_ascii (by decide), ih]
      · rfl
      · exact List.cons_ne_nil u ts

/-- What a written object gives to a reader of these fields. -/
def kept (ms : List (String × List Char)) : List (String × Raw) :=
  (ms.filter (·.1 ∈ names)).map fun m => (m.1, ⟨Part.ofText m.2⟩)

theorem exists_finds (hvalues : ∀ m ∈ ms, IsValue (Part.ofText m.2)) :
    ∃ members, Finds names members (kept names ms) ∧ (∀ m ∈ members, IsValue m.2.text) ∧
      List.Forall₂ Json.Member members
        (ms.map fun (name, value) => Part.ofText (Json.member name value)) := by
  induction ms with
  | nil => exact ⟨[], .nil, by simp, .nil⟩
  | cons m ms ih =>
    obtain ⟨name, value⟩ := m
    obtain ⟨hvalue, hvalues⟩ := List.forall_mem_cons.mp hvalues
    obtain ⟨members, hfinds, hall, htexts⟩ := ih hvalues
    obtain ⟨ps, hbody, hps⟩ := exists_spells_ofText name.toList
    refine ⟨(ps, ⟨Part.ofText value⟩) :: members, ?_, List.forall_mem_cons.mpr ⟨hvalue, hall⟩,
      .cons ?_ htexts⟩
    · by_cases hname : name ∈ names
      · rw [kept, List.filter_cons_of_pos (by simpa using hname)]
        exact .field _ hps hname hfinds
      · rw [kept, List.filter_cons_of_neg (by simpa using hname)]
        exact .other _ hps hname hfinds
    · refine ⟨[], _, [], Part.ofText value, Json.isGap_nil, hbody, Json.isGap_nil,
        Json.item_self ⟨Part.ofText value⟩, ?_⟩
      change Part.ofText (Json.quote name ++ ':' :: value) = _
      rw [ofText_append, ofText_quote, ofText_cons_of_ascii (by decide)]
      simp only [List.nil_append, List.cons_append, List.append_assoc]

theorem gives_object (hvalues : ∀ m ∈ ms, IsValue (Part.ofText m.2))
    (honce : (ms.map Prod.fst).Nodup) :
    Gives names (Part.ofText (Json.object ms)) ⟨kept names ms, false⟩ := by
  obtain ⟨members, hfinds, hall, htexts⟩ := exists_finds names hvalues
  have hpart : Part.ofText (Json.object ms) = '{' :: (Json.commas
      (ms.map fun (name, value) => Part.ofText (Json.member name value)) ++ ['}']) := by
    rw [Json.object, ofText_cons_of_ascii (by decide), ofText_append, ofText_commas,
      ofText_of_ascii (List.forall_mem_singleton.mpr (by decide)), List.map_map]
    rfl
  rw [hpart]
  refine .object (Shape.Describes.object hall (Json.encloses_commas _ _ htexts)).of hfinds ?_
  rw [kept, List.map_map]
  exact honce.sublist (List.filter_sublist.map Prod.fst)

theorem get?_kept (name : String) : Record.get? ⟨kept names ms, false⟩ name =
    if name ∈ names then (ms.lookup name).map (⟨Part.ofText ·⟩) else none := by
  rw [Record.get?, kept]
  induction ms with
  | nil => simp
  | cons m ms ih =>
    obtain ⟨n, value⟩ := m
    by_cases hname : name = n
    · subst hname
      by_cases hin : name ∈ names
      · rw [List.filter_cons_of_pos (by simpa using hin), if_pos hin, List.lookup_cons_self]
        exact List.lookup_cons_self
      · rw [List.filter_cons_of_neg (by simpa using hin), ih, if_neg hin, if_neg hin]
    · rw [List.lookup_cons, beq_false_of_ne hname]
      by_cases hin : n ∈ names
      · rw [List.filter_cons_of_pos (by simpa using hin), List.map_cons, List.lookup_cons,
          beq_false_of_ne hname]
        exact ih
      · rw [List.filter_cons_of_neg (by simpa using hin)]
        exact ih

theorem has_of_lookup {α : Type} {name : String} {value : List Char} {is : Raw → α → Prop} {a : α}
    (hname : name ∈ names) (hlookup : ms.lookup name = some value)
    (his : is ⟨Part.ofText value⟩ a) : Has ⟨kept names ms, false⟩ name is a := by
  refine ⟨⟨Part.ofText value⟩, ?_, his⟩
  rw [get?_kept, if_pos hname, hlookup, Option.map_some]

theorem permits_of_lookup_eq_none {name : String} {good : Raw → Prop}
    (hlookup : ms.lookup name = none) : Permits ⟨kept names ms, false⟩ name good := by
  rw [Permits, get?_kept, hlookup, Option.map_none, ite_self]

end Object

/-! ## The parts of a signed token -/

/-- The header of a signed token. -/
def headerText : List Char :=
  Json.object [("typ", Json.quote "JWT"), ("alg", Json.quote method)]

theorem isHeader_headerText : IsHeader (Part.ofText headerText) "HS256" := by
  have hvalues : ∀ m ∈ [("typ", Json.quote "JWT"), ("alg", Json.quote method)],
      IsValue (Part.ofText m.2) := by
    simp only [List.forall_mem_cons]
    exact ⟨isValue_ofText_quote _, isValue_ofText_quote _, nofun⟩
  refine ⟨gives_object _ hvalues (by decide), ?_, ?_, ?_, ?_⟩
  · exact has_of_lookup _ (by decide) rfl (.text (isText_quote method))
  · intro name hname
    rcases List.mem_cons.mp hname with rfl | hname
    · rw [Permits, get?_kept]
      exact Or.inr ⟨_, isText_quote "JWT"⟩
    · refine permits_of_lookup_eq_none _ ?_
      have hall : ∀ name ∈ ["cty", "jku", "kid", "x5u", "x5t", "x5t#S256"],
          name ≠ "typ" ∧ name ≠ "alg" := by decide
      obtain ⟨htyp, halg⟩ := hall name hname
      rw [List.lookup_cons, beq_false_of_ne htyp, List.lookup_cons, beq_false_of_ne halg]
      rfl
  · exact permits_of_lookup_eq_none _ rfl
  · exact permits_of_lookup_eq_none _ rfl

theorem isValue_of_mem_write (c : Claims) :
    ∀ m ∈ [("user_id", Json.quote c.user), ("username", Json.quote c.username),
      ("is_owner", Json.bool c.isOwner), ("exp", Json.nat c.expires), ("iat", Json.nat c.issued)],
      IsValue (Part.ofText m.2) := by
  have hnat (n : Nat) : IsValue (Part.ofText (Json.nat n)) := by
    rw [ofText_nat]
    exact .number (Json.isNumber_nat n)
  simp only [List.forall_mem_cons]
  refine ⟨isValue_ofText_quote _, isValue_ofText_quote _, ?_, hnat _, hnat _, nofun⟩
  rw [ofText_bool]
  exact .bool _

/-- The names of the claims are all different. -/
theorem nodup_claimNames : ["user_id", "username", "is_owner", "exp", "iat"].Nodup := by decide

theorem states_write {c : Claims} (hexpires : c.expires < UInt64.size)
    (hissued : c.issued < UInt64.size) : States (Part.ofText c.write) c := by
  refine ⟨gives_object _ (isValue_of_mem_write c) nodup_claimNames, ?_, ?_, ?_, ?_, ?_⟩
  · exact has_of_lookup _ (by decide) rfl (isText_quote c.user)
  · exact has_of_lookup _ (by decide) rfl (isText_quote c.username)
  · refine .given (v := ⟨Part.ofText (Json.bool c.isOwner)⟩) ?_ ?_
    · rw [get?_kept]
      rfl
    · rw [ofText_bool]
      exact Json.isBool_bool c.isOwner
  · exact has_of_lookup _ (by decide) rfl (isWord_nat hexpires)
  · exact has_of_lookup _ (by decide) rfl (isWord_nat hissued)

theorem unaddressed_write (c : Claims) : Unaddressed (Part.ofText c.write) := by
  refine ⟨gives_object _ (isValue_of_mem_write c) nodup_claimNames, rfl, ?_, ?_, ?_, ?_, ?_⟩
  all_goals
    intro v hv
    rw [get?_kept] at hv
    cases hv

end ChatHub.Token
