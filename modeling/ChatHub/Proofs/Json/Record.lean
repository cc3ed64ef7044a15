import ChatHub.Json.Record
import ChatHub.Proofs.Json.Shape
/-!
What the readers of strings, flags, optional values and records find, told by the grammar.
-/

namespace ChatHub.Json

/-- The items of a literal stand for this text. -/
inductive Denotes : List Piece → List Char → Prop where
  | nil : Denotes [] []
  | plain (c : Char) {ps : List Piece} {cs : List Char} (hrest : Denotes ps cs) :
      Denotes (.plain c :: ps) (c :: cs)
  | unit {n : Nat} {ps : List Piece} {cs : List Char} (hlead : isLead n = false)
      (htrail : isTrail n = false) (hrest : Denotes ps cs) :
      Denotes (.unit n :: ps) (Char.ofNat n :: cs)
  | pair {n m : Nat} {ps : List Piece} {cs : List Char} (hlead : isLead n = true)
      (htrail : isTrail m = true) (hrest : Denotes ps cs) :
      Denotes (.unit n :: .unit m :: ps) (paired n m :: cs)

/-- The items stand for some text: no half of a pair stands alone. -/
def Readable (ps : List Piece) : Prop := ∃ cs, Denotes ps cs

theorem denotes_of_text? {ps : List Piece} {cs : List Char} (h : text? ps = some cs) :
    Denotes ps cs := by
  fun_induction text? ps generalizing cs with
  | case1 =>
    cases h
    exact .nil
  | case2 c ps ih =>
    obtain ⟨ds, hds, rfl⟩ := Option.map_eq_some_iff.mp h
    exact .plain c (ih hds)
  | case3 n m ps hpair ih =>
    obtain ⟨ds, hds, rfl⟩ := Option.map_eq_some_iff.mp h
    rw [Bool.and_eq_true] at hpair
    exact .pair hpair.1 hpair.2 (ih hds)
  | case4 | case6 => cases h
  | case5 n m ps _ hhalf ih =>
    obtain ⟨ds, hds, rfl⟩ := Option.map_eq_some_iff.mp h
    rw [Bool.or_eq_true, not_or, Bool.not_eq_true, Bool.not_eq_true] at hhalf
    exact .unit hhalf.1 hhalf.2 (ih hds)
  | case7 n ps _ hhalf ih =>
    obtain ⟨ds, hds, rfl⟩ := Option.map_eq_some_iff.mp h
    rw [Bool.or_eq_true, not_or, Bool.not_eq_true, Bool.not_eq_true] at hhalf
    exact .unit hhalf.1 hhalf.2 (ih hds)

theorem Denotes.text?_eq {ps : List Piece} {cs : List Char} (h : Denotes ps cs) :
    text? ps = some cs := by
  induction h with
  | nil => rfl
  | plain c _ ih => rw [text?, ih, Option.map_some]
  | @unit n ps cs hlead htrail _ ih =>
    -- whether another unit follows makes no difference to one that is no half
    rw [text?.eq_def]
    split
    all_goals grind
  | pair hlead htrail _ ih =>
    rw [text?, hlead, htrail, ih]
    rfl

theorem text?_eq_some {ps : List Piece} {cs : List Char} : text? ps = some cs ↔ Denotes ps cs :=
  ⟨denotes_of_text?, Denotes.text?_eq⟩

theorem Denotes.unique {ps : List Piece} {cs ds : List Char} (hcs : Denotes ps cs)
    (hds : Denotes ps ds) : cs = ds :=
  Option.some.inj (hcs.text?_eq.symm.trans hds.text?_eq)

namespace Raw

variable {v : Raw}

/-- The value is a literal that stands for this text. -/
def IsString (v : Raw) (s : String) : Prop :=
  ∃ ps, (Shape.string ps).Of v.text ∧ Denotes ps s.toList

/-- The value is this flag. -/
def IsBool (v : Raw) (b : Bool) : Prop := (Shape.bool b).Of v.text

/-- The value is `null` and stands for nothing, or stands for itself. -/
def IsNullable (v : Raw) (p : Option Raw) : Prop :=
  Shape.null.Of v.text ∧ p = none ∨ ¬Shape.null.Of v.text ∧ p = some v

theorem string?_eq_some {s : String} : v.string? = some s ↔ v.IsString s := by
  constructor
  · intro h
    rw [string?, stringWith?] at h
    split at h
    next ps hshape =>
      obtain ⟨cs, hcs, rfl⟩ := Option.map_eq_some_iff.mp h
      refine ⟨ps, Shape.ofText?_eq_some.mp hshape, ?_⟩
      rw [String.toList_ofList]
      exact text?_eq_some.mp hcs
    next => cases h
  · rintro ⟨ps, hshape, hs⟩
    have hread : v.shape? = some (.string ps) := Shape.ofText?_eq_some.mpr hshape
    simp only [string?, stringWith?, hread, text?_eq_some.mpr hs, Option.map_some,
      String.ofList_toList]

theorem bool?_eq_some {b : Bool} : v.bool? = some b ↔ v.IsBool b := by
  rw [IsBool, ← Shape.ofText?_eq_some, bool?, shape?]
  cases Shape.ofText? v.text with
  | none => simp
  | some s => cases s <;> simp

theorem isNull_iff : v.isNull = true ↔ Shape.null.Of v.text := by
  rw [← Shape.ofText?_eq_some, isNull, shape?, beq_iff_eq]

theorem nullable?_eq_some {p : Option Raw} : v.nullable? some = some p ↔ v.IsNullable p := by
  rw [IsNullable, ← isNull_iff, nullable?]
  cases v.isNull <;> simp [eq_comm]

end Raw

namespace Record

variable {skips : List Piece → Prop} {names : List String}

/-- The fields among the members, in their order.  What is passed over is not a field and has a
name that `skips` lets pass. -/
inductive Known (skips : List Piece → Prop) (names : List String) :
    List (List Piece × Raw) → List (String × Raw) → Prop where
  | nil : Known skips names [] []
  | field {ps : List Piece} {n : String} (v : Raw) {members : List (List Piece × Raw)}
      {fields : List (String × Raw)} (hps : Denotes ps n.toList) (hn : n ∈ names)
      (hrest : Known skips names members fields) :
      Known skips names ((ps, v) :: members) ((n, v) :: fields)
  | other {ps : List Piece} (v : Raw) {members : List (List Piece × Raw)}
      {fields : List (String × Raw)} (hps : skips ps) (hn : ∀ n ∈ names, ¬Denotes ps n.toList)
      (hrest : Known skips names members fields) :
      Known skips names ((ps, v) :: members) fields

/-- The text gives this record: an object none of whose fields comes twice, or an array of fields
in their order. -/
inductive Given (skips : List Piece → Prop) (names : List String) (cs : List Char) :
    Record → Prop where
  | object {members : List (List Piece × Raw)} {fields : List (String × Raw)}
      (hcs : (Shape.object members).Of cs) (hknown : Known skips names members fields)
      (honce : (fields.map Prod.fst).Nodup) : Given skips names cs ⟨fields, false⟩
  | array {items : List Raw} (hcs : (Shape.array items).Of cs)
      (hlength : items.length ≤ names.length) : Given skips names cs ⟨names.zip items, true⟩

theorem Known.exists_member {members : List (List Piece × Raw)} {fields : List (String × Raw)}
    (hknown : Known skips names members fields) {f : String × Raw} (hf : f ∈ fields) :
    ∃ m ∈ members, m.2 = f.2 := by
  induction hknown with
  | nil => exact absurd hf List.not_mem_nil
  | field v hps hn _ ih =>
    rcases List.mem_cons.mp hf with rfl | hf
    · exact ⟨_, List.mem_cons_self, rfl⟩
    · obtain ⟨m, hm, heq⟩ := ih hf
      exact ⟨m, List.mem_cons_of_mem _ hm, heq⟩
  | other v hps hn _ ih =>
    obtain ⟨m, hm, heq⟩ := ih hf
    exact ⟨m, List.mem_cons_of_mem _ hm, heq⟩

/-- What a record gives are values. -/
theorem Given.isValue {cs : List Char} {r : Record} (h : Given skips names cs r) {name : String}
    {v : Raw} (hv : r.get? name = some v) : IsValue v.text := by
  obtain ⟨before, after, hfields, _⟩ := List.lookup_eq_some_iff.mp hv
  have hmem : (name, v) ∈ r.fields := by simp [hfields]
  cases h with
  | object hcs hknown =>
    obtain ⟨g, t, g', _, hdescribes, _, _⟩ := hcs
    obtain ⟨m, hm, rfl⟩ := hknown.exists_member hmem
    cases hdescribes with
    | object hmembers => exact hmembers m hm
  | array hcs =>
    obtain ⟨g, t, g', _, hdescribes, _, _⟩ := hcs
    cases hdescribes with
    | array hitems => exact hitems v (List.of_mem_zip hmem).2

/-- What a field stands for that need not be there. -/
inductive Field {α : Type} (r : Record) (name : String) (is : Raw → α → Prop) (default : α) :
    α → Prop where
  | given {v : Raw} {a : α} (hv : r.get? name = some v) (ha : is v a) :
      Field r name is default a
  | absent (hv : r.get? name = none) : Field r name is default default

theorem withDefault?_eq_some {α : Type} {r : Record} {name : String} {read : Raw → Option α}
    {is : Raw → α → Prop} {default a : α} (hread : ∀ {v a}, read v = some a ↔ is v a) :
    r.withDefault? name read default = some a ↔ r.Field name is default a := by
  rw [withDefault?]
  constructor
  · intro h
    split at h
    next v hv => exact .given hv (hread.mp h)
    next hv => exact Option.some.inj h ▸ .absent hv
  · intro h
    cases h with
    | given hv ha =>
      rw [hv]
      exact hread.mpr ha
    | absent hv => rw [hv]

section Selection

variable {members : List (List Piece × Raw)} {fields : List (String × Raw)}

theorem known_of_selectWith? (h : selectWith? text? names members = some fields) :
    Known Readable names members fields ∧ (fields.map Prod.fst).Nodup := by
  induction members generalizing fields with
  | nil =>
    cases h
    exact ⟨.nil, List.nodup_nil⟩
  | cons m members ih =>
    obtain ⟨ps, v⟩ := m
    rw [selectWith?] at h
    split at h
    next cs rest hcs hrest =>
      obtain ⟨hknown, honce⟩ := ih hrest
      have hname : Denotes ps (String.ofList cs).toList := by
        rw [String.toList_ofList]
        exact denotes_of_text? hcs
      simp only at h
      split at h
      next hn =>
        split at h
        next => cases h
        next hnew =>
          cases h
          refine ⟨.field v hname hn hknown, List.nodup_cons.mpr ⟨fun hmem => hnew ?_, honce⟩⟩
          obtain ⟨f, hf, heq⟩ := List.mem_map.mp hmem
          exact List.any_eq_true.mpr ⟨f, hf, beq_iff_eq.mpr heq⟩
      next hn =>
        cases h
        refine ⟨.other v ⟨cs, denotes_of_text? hcs⟩ (fun n hmem hps => hn ?_) hknown, honce⟩
        rwa [← String.toList_inj.mp (hps.unique hname)]
    next => cases h

theorem Known.selectWith?_eq (hknown : Known Readable names members fields)
    (honce : (fields.map Prod.fst).Nodup) : selectWith? text? names members = some fields := by
  induction hknown with
  | nil => rfl
  | @field ps n v members fields hps hn _ ih =>
    rw [List.map_cons, List.nodup_cons] at honce
    have hnew : fields.any (·.1 == n) = false := by
      rw [List.any_eq_false]
      intro f hf heq
      exact honce.1 (List.mem_map.mpr ⟨f, hf, beq_iff_eq.mp heq⟩)
    rw [selectWith?, hps.text?_eq, ih honce.2]
    simp only [String.ofList_toList, if_pos hn, hnew, Bool.false_eq_true, if_false]
  | other v hps hn _ ih =>
    obtain ⟨cs, hcs⟩ := hps
    have hout : String.ofList cs ∉ names := by
      intro hmem
      apply hn _ hmem
      rwa [String.toList_ofList]
    rw [selectWith?, hcs.text?_eq, ih honce]
    simp only [if_neg hout]

end Selection

/-- A record is read from the texts that give it. -/
theorem ofText?_eq_some {cs : List Char} {r : Record} :
    ofText? names cs = some r ↔ Given Readable names cs r := by
  rw [ofText?, ofTextWith?]
  constructor
  · intro h
    split at h
    next members hshape =>
      obtain ⟨fields, hfields, rfl⟩ := Option.map_eq_some_iff.mp h
      obtain ⟨hknown, honce⟩ := known_of_selectWith? hfields
      exact .object (Shape.ofText?_eq_some.mp hshape) hknown honce
    next items hshape =>
      split at h
      next hlength =>
        cases h
        exact .array (Shape.ofText?_eq_some.mp hshape) hlength
      next => cases h
    next => cases h
  · intro h
    cases h with
    | object hcs hknown honce =>
      simp only [Shape.ofText?_eq_some.mpr hcs, hknown.selectWith?_eq honce, Option.map_some]
    | array hcs hlength => simp only [Shape.ofText?_eq_some.mpr hcs, if_pos hlength]

end Record

end ChatHub.Json
