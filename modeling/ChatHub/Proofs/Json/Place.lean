import ChatHub.Proofs.Json.Record
/-!
Where in the text of a record the value of a field stands.  What the readers give for a field is the
text at that place, cut out as it is, and no other place in the record bears the field's name.
-/

namespace ChatHub.Json

section Split

variable {α : Type} {item : α → List Char → Prop}

/-- Items, each with a comma behind it. -/
inductive Led (item : α → List Char → Prop) : List α → List Char → Prop where
  | nil : Led item [] []
  | cons {a : α} {as : List α} {cs ds : List Char} (ha : item a cs) (hrest : Led item as ds) :
      Led item (a :: as) (cs ++ ',' :: ds)

/-- Items, each with a comma before it. -/
inductive Trailed (item : α → List Char → Prop) : List α → List Char → Prop where
  | nil : Trailed item [] []
  | cons {a : α} {as : List α} {cs ds : List Char} (ha : item a cs) (hrest : Trailed item as ds) :
      Trailed item (a :: as) (',' :: (cs ++ ds))

variable {a : α} {before after : List α} {lead cs tail : List Char}

theorem row_of_trailed (ha : item a cs) (hafter : Trailed item after tail) :
    Row item (a :: after) (cs ++ tail) := by
  induction hafter generalizing a cs with
  | nil =>
    rw [List.append_nil]
    exact .last ha
  | cons hb _ ih => exact .more ha (ih hb)

/-- An item among others makes a row. -/
theorem row_of_led (hbefore : Led item before lead) (ha : item a cs)
    (hafter : Trailed item after tail) :
    Row item (before ++ a :: after) (lead ++ (cs ++ tail)) := by
  induction hbefore with
  | nil =>
    rw [List.nil_append, List.nil_append]
    exact row_of_trailed ha hafter
  | cons hb _ ih =>
    rw [List.append_assoc, List.cons_append, List.cons_append]
    exact .more hb ih

theorem Row.exists_trailed (hrow : Row item (a :: after) cs) :
    ∃ ds tail, item a ds ∧ Trailed item after tail ∧ cs = ds ++ tail := by
  induction after generalizing a cs with
  | nil =>
    cases hrow with
    | last ha => exact ⟨_, [], ha, .nil, (List.append_nil _).symm⟩
    | more _ hrest => cases hrest
  | cons b after ih =>
    cases hrow with
    | more ha hrest =>
      obtain ⟨ds, tail, hb, htail, rfl⟩ := ih hrest
      exact ⟨_, _, ha, .cons hb htail, rfl⟩

/-- Every item of a row stands among the others. -/
theorem Row.exists_led (hrow : Row item (before ++ a :: after) cs) :
    ∃ lead ds tail, Led item before lead ∧ item a ds ∧ Trailed item after tail ∧
      cs = lead ++ (ds ++ tail) := by
  induction before generalizing cs with
  | nil =>
    obtain ⟨ds, tail, ha, htail, rfl⟩ := hrow.exists_trailed
    exact ⟨[], ds, tail, .nil, ha, htail, rfl⟩
  | cons b before ih =>
    rw [List.cons_append] at hrow
    generalize has : before ++ a :: after = as at hrow
    cases hrow with
    | last => simp at has
    | more hb hrest =>
      subst has
      obtain ⟨lead, ds, tail, hlead, ha, htail, rfl⟩ := ih hrest
      refine ⟨_, ds, tail, .cons hb hlead, ha, htail, ?_⟩
      rw [List.append_assoc, List.cons_append]

end Split

namespace Record

variable {names : List String} {name : String}

/-- Between these two texts the value stands for a field of a record: behind its name in an object,
or at its place in an array. -/
inductive Stands (names : List String) (name : String) : List Char → Raw → List Char → Prop where
  | object {g lead g₁ body g₂ g₃ g₄ tail g' : List Char} {ps : List Piece}
      {before after : List (List Piece × Raw)} {v : Raw} (hg : IsGap g)
      (hbefore : Led Member before lead) (hg₁ : IsGap g₁) (hbody : Spells ps body)
      (hps : Denotes ps name.toList) (hg₂ : IsGap g₂) (hg₃ : IsGap g₃) (hg₄ : IsGap g₄)
      (hafter : Trailed Member after tail) (hg' : IsGap g')
      (hvalues : ∀ m ∈ before ++ (ps, v) :: after, IsValue m.2.text) :
      Stands names name
        (g ++ '{' :: (lead ++ (g₁ ++ '"' :: (body ++ '"' :: (g₂ ++ ':' :: g₃))))) v
        (g₄ ++ (tail ++ '}' :: g'))
  | array {g lead g₁ g₂ tail g' : List Char} {before after : List Raw} {v : Raw} (hg : IsGap g)
      (hbefore : Led Item before lead) (hg₁ : IsGap g₁)
      (hname : names[before.length]? = some name) (hg₂ : IsGap g₂)
      (hafter : Trailed Item after tail) (hg' : IsGap g')
      (hvalues : ∀ w ∈ before ++ v :: after, IsValue w.text) :
      Stands names name (g ++ '[' :: (lead ++ g₁)) v (g₂ ++ (tail ++ ']' :: g'))

variable {skips : List Piece → Prop} {cs left right : List Char} {v : Raw} {r : Record}

/-- The level of a record in which a field stands. -/
theorem Stands.shape (hv : Stands names name left v right) :
    (∃ before ps after, (Shape.object (before ++ (ps, v) :: after)).Of (left ++ (v.text ++ right)) ∧
        Denotes ps name.toList) ∨
      ∃ before after, (Shape.array (before ++ v :: after)).Of (left ++ (v.text ++ right)) ∧
        names[before.length]? = some name := by
  cases hv with
  | @object g lead g₁ body g₂ g₃ g₄ tail g' ps before after _ hg hbefore hg₁ hbody hps hg₂ hg₃ hg₄
      hafter hg' hvalues =>
    have hitem : Item v (g₃ ++ (v.text ++ g₄)) := ⟨g₃, g₄, hg₃, hg₄, rfl⟩
    have hmember : Member (ps, v)
        (g₁ ++ '"' :: (body ++ '"' :: (g₂ ++ ':' :: (g₃ ++ (v.text ++ g₄))))) :=
      ⟨g₁, body, g₂, _, hg₁, hbody, hg₂, hitem, rfl⟩
    have hrow := row_of_led hbefore hmember hafter
    refine Or.inl ⟨before, ps, after, ⟨g, _, g', hg, .object hvalues (.filled hrow), hg', ?_⟩, hps⟩
    simp only [List.append_assoc, List.cons_append, List.nil_append]
  | @array g lead g₁ g₂ tail g' before after _ hg hbefore hg₁ hname hg₂ hafter hg' hvalues =>
    have hitem : Item v (g₁ ++ (v.text ++ g₂)) := ⟨g₁, g₂, hg₁, hg₂, rfl⟩
    have hrow := row_of_led hbefore hitem hafter
    refine Or.inr ⟨before, after, ⟨g, _, g', hg, .array hvalues (.filled hrow), hg', ?_⟩, hname⟩
    simp only [List.append_assoc, List.cons_append, List.nil_append]

theorem exists_stands_of_object {before after : List (List Piece × Raw)} {ps : List Piece}
    (hcs : (Shape.object (before ++ (ps, v) :: after)).Of cs) (hps : Denotes ps name.toList) :
    ∃ left right, cs = left ++ (v.text ++ right) ∧ Stands names name left v right := by
  obtain ⟨g, t, g', hg, hdescribes, hg', rfl⟩ := hcs
  cases hdescribes with
  | object hvalues hencloses =>
    generalize hmembers : before ++ (ps, v) :: after = members at hvalues hencloses
    cases hencloses with
    | empty => simp at hmembers
    | filled hrow =>
      subst hmembers
      obtain ⟨lead, _, tail, hlead, hmember, htail, rfl⟩ := hrow.exists_led
      obtain ⟨g₁, body, g₂, _, hg₁, hbody, hg₂, ⟨g₃, g₄, hg₃, hg₄, rfl⟩, rfl⟩ := hmember
      refine ⟨_, _, ?_, .object hg hlead hg₁ hbody hps hg₂ hg₃ hg₄ htail hg' hvalues⟩
      simp only [List.append_assoc, List.cons_append, List.nil_append]

theorem exists_stands_of_array {before after : List Raw}
    (hcs : (Shape.array (before ++ v :: after)).Of cs)
    (hname : names[before.length]? = some name) :
    ∃ left right, cs = left ++ (v.text ++ right) ∧ Stands names name left v right := by
  obtain ⟨g, t, g', hg, hdescribes, hg', rfl⟩ := hcs
  cases hdescribes with
  | array hvalues hencloses =>
    generalize hitems : before ++ v :: after = items at hvalues hencloses
    cases hencloses with
    | empty => simp at hitems
    | filled hrow =>
      subst hitems
      obtain ⟨lead, _, tail, hlead, ⟨g₁, g₂, hg₁, hg₂, rfl⟩, htail, rfl⟩ := hrow.exists_led
      refine ⟨_, _, ?_, .array hg hlead hg₁ hname hg₂ htail hg' hvalues⟩
      simp only [List.append_assoc, List.cons_append, List.nil_append]

/-- The fields among the members are those with a name that is asked for. -/
theorem Known.mem_iff {members : List (List Piece × Raw)} {fields : List (String × Raw)}
    (hknown : Known skips names members fields) (hname : name ∈ names) :
    (name, v) ∈ fields ↔ ∃ ps, (ps, v) ∈ members ∧ Denotes ps name.toList := by
  induction hknown with
  | nil => simp
  | @field qs n w members fields hqs hn _ ih =>
    rw [List.mem_cons, ih]
    constructor
    · rintro (heq | ⟨ps, hmem, hps⟩)
      · cases heq
        exact ⟨qs, List.mem_cons_self, hqs⟩
      · exact ⟨ps, List.mem_cons_of_mem _ hmem, hps⟩
    · rintro ⟨ps, hmem, hps⟩
      rcases List.mem_cons.mp hmem with heq | hmem
      · cases heq
        have hsame : name = n := String.toList_inj.mp (hps.unique hqs)
        exact Or.inl (by rw [hsame])
      · exact Or.inr ⟨ps, hmem, hps⟩
  | @other qs w members fields hqs hout _ ih =>
    rw [ih]
    constructor
    · rintro ⟨ps, hmem, hps⟩
      exact ⟨ps, List.mem_cons_of_mem _ hmem, hps⟩
    · rintro ⟨ps, hmem, hps⟩
      rcases List.mem_cons.mp hmem with heq | hmem
      · cases heq
        exact absurd hps (hout name hname)
      · exact ⟨ps, hmem, hps⟩

theorem lookup_eq_some_iff_mem {fields : List (String × Raw)}
    (honce : (fields.map Prod.fst).Nodup) : fields.lookup name = some v ↔ (name, v) ∈ fields := by
  induction fields with
  | nil => simp
  | cons f fields ih =>
    obtain ⟨n, w⟩ := f
    rw [List.map_cons, List.nodup_cons] at honce
    rw [List.lookup_cons, List.mem_cons]
    by_cases heq : name = n
    · subst heq
      have hout : (name, v) ∉ fields :=
        fun hmem => honce.1 (List.mem_map.mpr ⟨_, hmem, rfl⟩)
      simp [hout, eq_comm]
    · have hbeq : (name == n) = false := beq_eq_false_iff_ne.mpr heq
      simp [hbeq, heq, ih honce.2]

theorem nodup_fst_zip (hnodup : names.Nodup) (items : List Raw) :
    ((names.zip items).map Prod.fst).Nodup := by
  induction names generalizing items with
  | nil => simp
  | cons n names ih =>
    cases items with
    | nil => simp
    | cons w items =>
      rw [List.nodup_cons] at hnodup
      rw [List.zip_cons_cons, List.map_cons, List.nodup_cons]
      refine ⟨fun hmem => ?_, ih hnodup.2 items⟩
      obtain ⟨f, hf, rfl⟩ := List.mem_map.mp hmem
      exact hnodup.1 (List.of_mem_zip hf).1

theorem mem_zip_iff {items : List Raw} : (name, v) ∈ names.zip items ↔
    ∃ before after, items = before ++ v :: after ∧ names[before.length]? = some name := by
  rw [List.mem_iff_getElem?]
  constructor
  · rintro ⟨i, hi⟩
    obtain ⟨hname, hv⟩ := List.getElem?_zip_eq_some.mp hi
    obtain ⟨hlt, rfl⟩ := List.getElem?_eq_some_iff.mp hv
    refine ⟨items.take i, items.drop (i + 1), ?_, ?_⟩
    · rw [List.getElem_cons_drop, List.take_append_drop]
    · rw [List.length_take, Nat.min_eq_left (Nat.le_of_lt hlt)]
      exact hname
  · rintro ⟨before, after, rfl, hname⟩
    exact ⟨before.length, List.getElem?_zip_eq_some.mpr ⟨hname, by simp⟩⟩

/-- The readers give for a field just what stands for it. -/
theorem Given.get?_eq_some_iff (hgiven : Given skips names cs r) (hnodup : names.Nodup)
    (hname : name ∈ names) : r.get? name = some v ↔
      ∃ left right, cs = left ++ (v.text ++ right) ∧ Stands names name left v right := by
  cases hgiven with
  | @object members fields hcs hknown honce =>
    rw [get?, lookup_eq_some_iff_mem honce, hknown.mem_iff hname]
    constructor
    · rintro ⟨ps, hmem, hps⟩
      obtain ⟨before, after, rfl⟩ := List.append_of_mem hmem
      exact exists_stands_of_object hcs hps
    · rintro ⟨left, right, rfl, hv⟩
      rcases hv.shape with ⟨before, ps, after, hshape, hps⟩ | ⟨before, after, hshape, _⟩
      · obtain rfl := Shape.object.inj (hcs.unique hshape)
        exact ⟨ps, by simp, hps⟩
      · cases hcs.unique hshape
  | @array items hcs hlength =>
    rw [get?, lookup_eq_some_iff_mem (nodup_fst_zip hnodup items), mem_zip_iff]
    constructor
    · rintro ⟨before, after, rfl, hplace⟩
      exact exists_stands_of_array hcs hplace
    · rintro ⟨left, right, rfl, hv⟩
      rcases hv.shape with ⟨before, ps, after, hshape, _⟩ | ⟨before, after, hshape, hplace⟩
      · cases hcs.unique hshape
      · obtain rfl := Shape.array.inj (hcs.unique hshape)
        exact ⟨before, after, rfl, hplace⟩

end Record

end ChatHub.Json
