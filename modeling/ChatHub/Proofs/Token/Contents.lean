import ChatHub.Proofs.Token.Part
import ChatHub.Token.Signed
/-!
What the two parts of a token say that are JSON: the header by which method it is signed, and the
payload who bears it, until when, and whether it is meant for somebody else.
-/

namespace ChatHub.Token

open Json (Piece Raw Record Shape)

/-! ## Lists of texts -/

/-- The value is a list of texts. -/
def IsTexts (v : Raw) : Prop :=
  ∃ items, (Shape.array items).Of v.text ∧ ∀ item ∈ items, ∃ s, IsText item s

theorem isSome_string? {v : Raw} : (string? v).isSome = true ↔ ∃ s, IsText v s := by
  rw [Option.isSome_iff_exists]
  exact exists_congr fun s => string?_eq_some

theorem isSome_mapM {α β : Type} {f : α → Option β} {as : List α} :
    (as.mapM f).isSome = true ↔ ∀ a ∈ as, (f a).isSome = true := by
  induction as with
  | nil => simp
  | cons a as ih =>
    rw [List.mapM_cons, List.forall_mem_cons, ← ih]
    cases f a with
    | none => simp
    | some b => cases as.mapM f <;> simp

theorem isSome_list?_string? {v : Raw} : (v.list? string?).isSome = true ↔ IsTexts v := by
  rw [Raw.list?, Raw.shape?]
  constructor
  · intro h
    split at h
    next items hshape =>
      rw [isSome_mapM] at h
      refine ⟨items, Shape.ofText?_eq_some.mp hshape, fun item hitem => ?_⟩
      exact isSome_string?.mp (h item hitem)
    next => cases h
  · rintro ⟨items, hshape, hitems⟩
    simp only [Shape.ofText?_eq_some.mpr hshape, isSome_mapM]
    exact fun item hitem => isSome_string?.mpr (hitems item hitem)

/-! ## The header -/

/-- The part is a header, with the name of a method.  Whatever else it may hold is of the right
kind. -/
inductive IsHeader (part : Part) (method : String) : Prop where
  | intro {r : Record}
      (hgives : Gives ["typ", "alg", "cty", "jku", "jwk", "kid", "x5u", "x5c", "x5t", "x5t#S256"]
        part r)
      (hmethod : Has r "alg" IsCase method)
      (htexts : ∀ name ∈ ["typ", "cty", "jku", "kid", "x5u", "x5t", "x5t#S256"],
        Permits r name fun v => ∃ s, IsText v s)
      (hkey : Permits r "jwk" fun v => isKey v = true) (hchain : Permits r "x5c" IsTexts)

theorem readMethod?_eq_some {part : Part} {method : String} :
    readMethod? part = some method ↔ IsHeader part method := by
  have hkey {r : Record} :
      (r.optional? "jwk" fun v => if isKey v then some v else none).isSome = true ↔
        Permits r "jwk" fun v => isKey v = true :=
    isSome_optional? fun v => by cases isKey v <;> simp
  have hchain {r : Record} :
      (r.optional? "x5c" (Raw.list? string?)).isSome = true ↔ Permits r "x5c" IsTexts :=
    isSome_optional? fun v => isSome_list?_string?
  have htext {r : Record} (name : String) : (r.optional? name string?).isSome = true ↔
      Permits r name fun v => ∃ s, IsText v s :=
    isSome_optional? fun v => isSome_string?
  simp only [readMethod?, Option.bind_eq_bind, Option.bind_none, Option.bind_eq_some_iff,
    Option.ite_none_left_eq_some, Bool.not_eq_true, Bool.not_eq_false', List.all_eq_true, htext,
    required?_eq_some caseWith?_eq_some, record?_eq_some]
  constructor
  · rintro ⟨r, hgives, htexts, k, hk, l, hl, hmethod⟩
    exact ⟨hgives, hmethod, htexts, hkey.mp (Option.isSome_of_mem hk),
      hchain.mp (Option.isSome_of_mem hl)⟩
  · rintro ⟨hgives, hmethod, htexts, hk, hl⟩
    obtain ⟨k, hk⟩ := Option.isSome_iff_exists.mp (hkey.mpr hk)
    obtain ⟨l, hl⟩ := Option.isSome_iff_exists.mp (hchain.mpr hl)
    exact ⟨_, hgives, htexts, k, hk, l, hl, hmethod⟩

/-! ## The claims -/

/-- The part states these claims.  Who does not say that he is an owner is none. -/
inductive States (part : Part) (c : Claims) : Prop where
  | intro {r : Record} (hgives : Gives ["user_id", "username", "is_owner", "exp", "iat"] part r)
      (huser : Has r "user_id" IsText c.user) (husername : Has r "username" IsText c.username)
      (howner : r.Field "is_owner" Raw.IsBool false c.isOwner)
      (hexpires : Has r "exp" IsWord c.expires) (hissued : Has r "iat" IsWord c.issued)

theorem read?_eq_some {part : Part} {c : Claims} : Claims.read? part = some c ↔ States part c := by
  simp only [Claims.read?, Option.bind_eq_bind, Option.bind_eq_some_iff, record?_eq_some,
    required?_eq_some string?_eq_some, required?_eq_some word64?_eq_some,
    Record.withDefault?_eq_some Raw.bool?_eq_some, Option.some.injEq]
  constructor
  · rintro ⟨r, hgives, user, huser, username, husername, owner, howner, expires, hexpires, issued,
      hissued, rfl⟩
    exact ⟨hgives, huser, husername, howner, hexpires, hissued⟩
  · rintro ⟨hgives, huser, husername, howner, hexpires, hissued⟩
    exact ⟨_, hgives, _, huser, _, husername, _, howner, _, hexpires, _, hissued, rfl⟩

/-! ## For whom a token is -/

/-- The value names somebody for whom a token is. -/
def NamesAudience (v : Raw) : Prop := (∃ s, IsText v s) ∨ IsTexts v

theorem ofParts_eq_complete {es : List Ending} (hes : ∀ e ∈ es, e = .complete) :
    Ending.ofParts es = .complete := by
  fun_induction Ending.ofParts es with
  | case1 => rfl
  | case2 e => exact hes e List.mem_cons_self
  | case3 es _ ih => exact ih fun e he => hes e (List.mem_cons_of_mem _ he)
  | case4 e es _ hne => exact absurd (hes e List.mem_cons_self) hne

/-- All of a text can be read. -/
theorem ofValue_of_isText {v : Raw} {s : String} (h : IsText v s) (room : Nat) :
    Ending.ofValue room v = .complete := by
  obtain ⟨ps, hshape, hs⟩ := h
  rw [Ending.ofValue.eq_def, Raw.shape?, Shape.ofText?_eq_some.mpr hshape]
  simp only [Ending.ofString, literal?_eq_some.mpr hs, Option.isSome_some, if_true]

theorem ofValue_of_isTexts {v : Raw} (h : IsTexts v) (room : Nat) :
    Ending.ofValue (room + 1) v = .complete := by
  obtain ⟨items, hshape, hitems⟩ := h
  rw [Ending.ofValue.eq_def, Raw.shape?, Shape.ofText?_eq_some.mpr hshape]
  refine ofParts_eq_complete (List.forall_mem_map.mpr fun item hitem => ?_)
  obtain ⟨s, hs⟩ := hitems item hitem
  exact ofValue_of_isText hs room

theorem namesAudience_iff {v : Raw} : Claims.namesAudience v = true ↔ NamesAudience v := by
  rw [Claims.namesAudience, Bool.and_eq_true, Bool.or_eq_true, isSome_string?,
    isSome_list?_string?, beq_iff_eq, NamesAudience]
  refine and_iff_right_of_imp fun h => ?_
  rcases h with ⟨s, hs⟩ | htexts
  · exact ofValue_of_isText hs roomInPart
  · exact ofValue_of_isTexts htexts 125

/-- The part is an object that names nobody for whom the token is.  What it says for others can be
passed over. -/
inductive Unaddressed (part : Part) : Prop where
  | intro {r : Record} (hgives : Gives ["exp", "nbf", "sub", "iss", "aud"] part r)
      (hobject : r.positional = false)
      (hnobody : ∀ v, r.get? "aud" = some v → ¬NamesAudience v)
      (hnbf : ∀ v, r.get? "nbf" = some v → Ending.ofScalar true v ≠ .inside)
      (hsub : ∀ v, r.get? "sub" = some v → Ending.ofScalar false v ≠ .inside)
      (hiss : ∀ v, r.get? "iss" = some v → Ending.ofValue roomInPart v ≠ .inside)
      (haud : ∀ v, r.get? "aud" = some v → Ending.ofValue roomInPart v ≠ .inside)

theorem standardClaimsAllow_iff {part : Part} :
    Claims.standardClaimsAllow part = true ↔ Unaddressed part := by
  have hall {o : Option Raw} {p : Raw → Bool} : o.all p = true ↔ ∀ v, o = some v → p v = true := by
    cases o <;> simp
  rw [Claims.standardClaimsAllow]
  constructor
  · intro h
    split at h
    next r hr =>
      simp only [Bool.and_eq_true, Bool.not_eq_true', hall, bne_iff_ne, ← Bool.not_eq_true,
        namesAudience_iff] at h
      obtain ⟨⟨⟨⟨hobject, hnbf⟩, hsub⟩, hiss⟩, haud⟩ := h
      exact ⟨record?_eq_some.mp hr, Bool.eq_false_iff.mpr hobject,
        fun v hv => (haud v hv).2, hnbf, hsub, hiss, fun v hv => (haud v hv).1⟩
    next => cases h
  · rintro ⟨hgives, hobject, hnobody, hnbf, hsub, hiss, haud⟩
    simp only [record?_eq_some.mpr hgives, Bool.and_eq_true, Bool.not_eq_true', hall, bne_iff_ne,
      ← Bool.not_eq_true, namesAudience_iff]
    exact ⟨⟨⟨⟨by rw [hobject]; exact Bool.false_ne_true, hnbf⟩, hsub⟩, hiss⟩,
      fun v hv => ⟨haud v hv, hnobody v hv⟩⟩

end ChatHub.Token
