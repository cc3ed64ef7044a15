import ChatHub.Proofs.Json.Record
import ChatHub.Proofs.Text.Bytes
import ChatHub.Token.Part
/-!
What the readers find in a part of a token, told by the grammar.  A part is bytes, so a literal
stands for bytes first, and for a text only if they are the encoding of one.
-/

namespace ChatHub.Token

open Json (Piece Raw Record Shape isLead isTrail)

/-- The items of a literal stand for these bytes. -/
inductive Yields : List Piece → List UInt8 → Prop where
  | nil : Yields [] []
  /-- A character of a part is a byte. -/
  | plain (c : Char) {ps : List Piece} {bytes : List UInt8} (hrest : Yields ps bytes) :
      Yields (.plain c :: ps) (c.toNat.toUInt8 :: bytes)
  | unit {n : Nat} {ps : List Piece} {bytes : List UInt8} (hlead : isLead n = false)
      (htrail : isTrail n = false) (hrest : Yields ps bytes) :
      Yields (.unit n :: ps) (Text.bytesOf (Char.ofNat n) ++ bytes)
  | pair {n m : Nat} {ps : List Piece} {bytes : List UInt8} (hlead : isLead n = true)
      (htrail : isTrail m = true) (hrest : Yields ps bytes) :
      Yields (.unit n :: .unit m :: ps) (Text.bytesOf (Json.paired n m) ++ bytes)

/-- The items of a literal stand for the encoding of a text. -/
def Tells (ps : List Piece) (cs : List Char) : Prop := Yields ps (cs.flatMap Text.bytesOf)

theorem yields_of_literalBytes? {ps : List Piece} {bytes : List UInt8}
    (h : literalBytes? ps = some bytes) : Yields ps bytes := by
  fun_induction literalBytes? ps generalizing bytes with
  | case1 =>
    cases h
    exact .nil
  | case2 c ps ih =>
    obtain ⟨rest, hrest, rfl⟩ := Option.map_eq_some_iff.mp h
    exact .plain c (ih hrest)
  | case3 n m ps hpair ih =>
    obtain ⟨rest, hrest, rfl⟩ := Option.map_eq_some_iff.mp h
    rw [Bool.and_eq_true] at hpair
    exact .pair hpair.1 hpair.2 (ih hrest)
  | case4 | case6 => cases h
  | case5 n m ps _ hhalf ih =>
    obtain ⟨rest, hrest, rfl⟩ := Option.map_eq_some_iff.mp h
    rw [Bool.or_eq_true, not_or, Bool.not_eq_true, Bool.not_eq_true] at hhalf
    exact .unit hhalf.1 hhalf.2 (ih hrest)
  | case7 n ps _ hhalf ih =>
    obtain ⟨rest, hrest, rfl⟩ := Option.map_eq_some_iff.mp h
    rw [Bool.or_eq_true, not_or, Bool.not_eq_true, Bool.not_eq_true] at hhalf
    exact .unit hhalf.1 hhalf.2 (ih hrest)

theorem Yields.literalBytes?_eq {ps : List Piece} {bytes : List UInt8} (h : Yields ps bytes) :
    literalBytes? ps = some bytes := by
  induction h with
  | nil => rfl
  | plain c _ ih => rw [literalBytes?, ih, Option.map_some]
  | @unit n ps bytes hlead htrail _ ih =>
    -- whether another unit follows makes no difference to one that is no half
    rw [literalBytes?.eq_def]
    split
    all_goals grind
  | pair hlead htrail _ ih =>
    rw [literalBytes?, hlead, htrail, ih]
    rfl

theorem literalBytes?_eq_some {ps : List Piece} {bytes : List UInt8} :
    literalBytes? ps = some bytes ↔ Yields ps bytes :=
  ⟨yields_of_literalBytes?, Yields.literalBytes?_eq⟩

theorem literal?_eq_some {ps : List Piece} {cs : List Char} :
    literal? ps = some cs ↔ Tells ps cs := by
  rw [literal?, Option.bind_eq_some_iff, Tells, ← literalBytes?_eq_some]
  constructor
  · rintro ⟨bytes, hbytes, hcs⟩
    rwa [← Text.ofBytes?_eq_some.mp hcs]
  · exact fun h => ⟨_, h, Text.ofBytes?_eq_some.mpr rfl⟩

/-- The value is a literal that stands for this text. -/
def IsText (v : Raw) (s : String) : Prop := ∃ ps, (Shape.string ps).Of v.text ∧ Tells ps s.toList

theorem map_ofList_eq_some {o : Option (List Char)} {s : String} :
    o.map String.ofList = some s ↔ o = some s.toList := by
  rw [Option.map_eq_some_iff]
  constructor
  · rintro ⟨cs, rfl, rfl⟩
    rw [String.toList_ofList]
  · rintro rfl
    exact ⟨_, rfl, String.ofList_toList⟩

theorem string?_eq_some {v : Raw} {s : String} : string? v = some s ↔ IsText v s := by
  rw [string?, Raw.stringWith?, Raw.shape?]
  constructor
  · intro h
    split at h
    next ps hshape =>
      rw [map_ofList_eq_some, literal?_eq_some] at h
      exact ⟨ps, Shape.ofText?_eq_some.mp hshape, h⟩
    next => cases h
  · rintro ⟨ps, hshape, hs⟩
    simp only [Shape.ofText?_eq_some.mpr hshape, map_ofList_eq_some, literal?_eq_some]
    exact hs

/-- The value names a case without content: by a text, or by an object with that one member. -/
inductive IsCase (v : Raw) (name : String) : Prop
  | text (h : IsText v name)
  | object {ps : List Piece} {content : Raw} (h : (Shape.object [(ps, content)]).Of v.text)
      (hcontent : content.isNull = true) (hname : Tells ps name.toList)

theorem caseWith?_eq_some {v : Raw} {name : String} :
    v.caseWith? literal? Raw.isNull = some name ↔ IsCase v name := by
  rw [Raw.caseWith?, Raw.shape?]
  constructor
  · intro h
    split at h
    next ps hshape =>
      rw [map_ofList_eq_some, literal?_eq_some] at h
      exact .text ⟨ps, Shape.ofText?_eq_some.mp hshape, h⟩
    next ps content hshape =>
      split at h
      next hcontent =>
        rw [map_ofList_eq_some, literal?_eq_some] at h
        exact .object (Shape.ofText?_eq_some.mp hshape) hcontent h
      next => cases h
    next => cases h
  · rintro (⟨ps, hshape, hname⟩ | ⟨hshape, hcontent, hname⟩)
    · simp only [Shape.ofText?_eq_some.mpr hshape, map_ofList_eq_some, literal?_eq_some]
      exact hname
    · simp only [Shape.ofText?_eq_some.mpr hshape, if_pos hcontent, map_ofList_eq_some,
        literal?_eq_some]
      exact hname

/-- The value is a whole number of 64 bits, written with digits alone. -/
def IsWord (v : Raw) (n : Nat) : Prop :=
  ∃ ds, (Shape.number ds).Of v.text ∧ (∀ d ∈ ds, d.isDigit = true) ∧ Raw.decimal ds = n ∧
    n < UInt64.size

theorem word64?_eq_some {v : Raw} {n : Nat} : v.word64? = some n ↔ IsWord v n := by
  rw [Raw.word64?, Raw.shape?]
  constructor
  · intro h
    split at h
    next ds hshape =>
      split at h
      next hall =>
        rw [Bool.and_eq_true, List.all_eq_true, decide_eq_true_eq] at hall
        cases h
        exact ⟨ds, Shape.ofText?_eq_some.mp hshape, hall.1, rfl, hall.2⟩
      next => cases h
    next => cases h
  · rintro ⟨ds, hshape, hdigits, rfl, hsize⟩
    have hall : (ds.all Char.isDigit && Raw.decimal ds < UInt64.size) = true := by
      rw [Bool.and_eq_true, List.all_eq_true, decide_eq_true_eq]
      exact ⟨hdigits, hsize⟩
    simp only [Shape.ofText?_eq_some.mpr hshape, if_pos hall]

/-! ## Records -/

/-- The fields among the members, in their order.  All names are texts, and what is passed over has
another name than a field. -/
inductive Finds (names : List String) : List (List Piece × Raw) → List (String × Raw) → Prop where
  | nil : Finds names [] []
  | field {ps : List Piece} {n : String} (v : Raw) {members : List (List Piece × Raw)}
      {fields : List (String × Raw)} (hps : Tells ps n.toList) (hn : n ∈ names)
      (hrest : Finds names members fields) :
      Finds names ((ps, v) :: members) ((n, v) :: fields)
  | other {ps : List Piece} {n : String} (v : Raw) {members : List (List Piece × Raw)}
      {fields : List (String × Raw)} (hps : Tells ps n.toList) (hn : n ∉ names)
      (hrest : Finds names members fields) :
      Finds names ((ps, v) :: members) fields

/-- The part gives this record: an object none of whose fields comes twice, or an array of fields
in their order. -/
inductive Gives (names : List String) (part : Part) : Record → Prop where
  | object {members : List (List Piece × Raw)} {fields : List (String × Raw)}
      (hpart : (Shape.object members).Of part) (hfinds : Finds names members fields)
      (honce : (fields.map Prod.fst).Nodup) : Gives names part ⟨fields, false⟩
  | array {items : List Raw} (hpart : (Shape.array items).Of part)
      (hlength : items.length ≤ names.length) : Gives names part ⟨names.zip items, true⟩

section Record

variable {names : List String} {members : List (List Piece × Raw)} {fields : List (String × Raw)}

theorem any_fst_eq_false {n : String} :
    fields.any (·.1 == n) = false ↔ n ∉ fields.map Prod.fst := by
  rw [List.any_eq_false, List.mem_map]
  constructor
  · rintro h ⟨f, hf, heq⟩
    exact h f hf (beq_iff_eq.mpr heq)
  · exact fun h f hf heq => h ⟨f, hf, beq_iff_eq.mp heq⟩

theorem selectWith?_eq_some : Record.selectWith? literal? names members = some fields ↔
    Finds names members fields ∧ (fields.map Prod.fst).Nodup := by
  constructor
  · intro h
    induction members generalizing fields with
    | nil =>
      cases h
      exact ⟨.nil, List.nodup_nil⟩
    | cons m members ih =>
      obtain ⟨ps, v⟩ := m
      rw [Record.selectWith?] at h
      split at h
      next cs rest hcs hrest =>
        obtain ⟨hfinds, honce⟩ := ih hrest
        have hname : Tells ps (String.ofList cs).toList := by
          rw [String.toList_ofList]
          exact literal?_eq_some.mp hcs
        simp only at h
        split at h
        next hn =>
          split at h
          next => cases h
          next hnew =>
            cases h
            rw [Bool.not_eq_true, any_fst_eq_false] at hnew
            exact ⟨.field v hname hn hfinds, List.nodup_cons.mpr ⟨hnew, honce⟩⟩
        next hn =>
          cases h
          exact ⟨.other v hname hn hfinds, honce⟩
      next => cases h
  · rintro ⟨hfinds, honce⟩
    induction hfinds with
    | nil => rfl
    | @field ps n v members fields hps hn _ ih =>
      rw [List.map_cons, List.nodup_cons] at honce
      rw [Record.selectWith?, literal?_eq_some.mpr hps, ih honce.2]
      simp only [String.ofList_toList, if_pos hn, any_fst_eq_false.mpr honce.1,
        Bool.false_eq_true, if_false]
    | @other ps n v members fields hps hn _ ih =>
      rw [Record.selectWith?, literal?_eq_some.mpr hps, ih honce]
      simp only [String.ofList_toList, if_neg hn]

theorem record?_eq_some {part : Part} {r : Record} :
    record? names part = some r ↔ Gives names part r := by
  rw [record?, Record.ofTextWith?]
  constructor
  · intro h
    split at h
    next members hshape =>
      obtain ⟨fields, hfields, rfl⟩ := Option.map_eq_some_iff.mp h
      obtain ⟨hfinds, honce⟩ := selectWith?_eq_some.mp hfields
      exact .object (Shape.ofText?_eq_some.mp hshape) hfinds honce
    next items hshape =>
      split at h
      next hlength =>
        cases h
        exact .array (Shape.ofText?_eq_some.mp hshape) hlength
      next => cases h
    next => cases h
  · rintro (⟨hpart, hfinds, honce⟩ | ⟨hpart, hlength⟩)
    · simp only [Shape.ofText?_eq_some.mpr hpart, selectWith?_eq_some.mpr ⟨hfinds, honce⟩,
        Option.map_some]
    · simp only [Shape.ofText?_eq_some.mpr hpart, if_pos hlength]

end Record

/-- A field is there, and this is what it stands for. -/
def Has {α : Type} (r : Record) (name : String) (is : Raw → α → Prop) (a : α) : Prop :=
  ∃ v, r.get? name = some v ∧ is v a

theorem required?_eq_some {α : Type} {r : Record} {name : String} {read : Raw → Option α}
    {is : Raw → α → Prop} {a : α} (hread : ∀ {v a}, read v = some a ↔ is v a) :
    r.required? name read = some a ↔ Has r name is a := by
  simp only [Record.required?, Option.bind_eq_some_iff, hread, Has]

/-- A field is not there, which only an object leaves open, or is `null`, or is as it should be. -/
def Permits (r : Record) (name : String) (good : Raw → Prop) : Prop :=
  match r.get? name with
  | some v => v.isNull = true ∨ good v
  | none => r.positional = false

theorem isSome_optional? {α : Type} {r : Record} {name : String} {read : Raw → Option α}
    {good : Raw → Prop} (hread : ∀ v, (read v).isSome = true ↔ good v) :
    (r.optional? name read).isSome = true ↔ Permits r name good := by
  rw [Record.optional?, Permits]
  cases r.get? name with
  | none => cases r.positional <;> simp
  | some v =>
    simp only [Raw.nullable?]
    cases v.isNull <;> simp [hread]

end ChatHub.Token
