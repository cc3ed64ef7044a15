import ChatHub.Proofs.Token.Carrying
/-!
Which of the tokens of a request counts.  The three places are looked at in turn, and the first one
that has a token decides, even with an empty one; so an empty token hides what comes after it.
-/

namespace ChatHub.Token

open Http Text

/-- A place where a request may have its token. -/
inductive Carrier
  | cookie
  | authorization
  | query
deriving DecidableEq, Repr

namespace Carrier

/-- The places that are looked at before one. -/
def earlier : Carrier → List Carrier
  | cookie => []
  | authorization => [cookie]
  | query => [cookie, authorization]

/-- The token that a request has in a place. -/
def token? (hs : Headers) (t : Target) : Carrier → Option String
  | cookie => fromCookie? hs
  | authorization => fromAuthorization? hs
  | query => fromQuery? t

theorem trichotomy (c d : Carrier) : c = d ∨ c ∈ d.earlier ∨ d ∈ c.earlier := by
  cases c <;> cases d <;> decide

/-- Of the places with a property there is one that is looked at first. -/
theorem exists_first {P : Carrier → Prop} (hexists : ∃ c, P c) :
    ∃ c, P c ∧ ∀ d ∈ c.earlier, ¬ P d := by
  by_cases hcookie : P cookie
  · exact ⟨cookie, hcookie, List.forall_mem_nil _⟩
  · by_cases hauthorization : P authorization
    · exact ⟨authorization, hauthorization, List.forall_mem_singleton.mpr hcookie⟩
    · obtain ⟨c, hc⟩ := hexists
      cases c with
      | cookie => exact absurd hc hcookie
      | authorization => exact absurd hc hauthorization
      | query =>
        exact ⟨query, hc, List.forall_mem_cons.mpr
          ⟨hcookie, List.forall_mem_singleton.mpr hauthorization⟩⟩

end Carrier

/-- The cookies of a request: what stands between the semicolons of those of its cookie fields that
are texts, without the margins. -/
def cookies (hs : Headers) : List (List Char) :=
  ((Headers.all hs "cookie").filterMap Header.text?).flatMap fun text =>
    (splitAt ';' text.toList).map trim

/-- The first pair of that name has the value. -/
def IsFirst (name value : String) (pairs : List (List Char)) : Prop :=
  ∃ before after, pairs = before ++ pairOf name value :: after ∧
    ∀ pair ∈ before, ∀ other, pair ≠ pairOf name other

/-- The token that a request has in a place, told from what stands there. -/
inductive Carrier.Holds (hs : Headers) (t : Target) : Carrier → String → Prop
  | cookie {token : String} (hfirst : IsFirst cookieName token (cookies hs)) :
      Holds hs t .cookie token
  | authorization {field : Header} {rest : List Char}
      (hfield : Headers.first? hs "authorization" = some field)
      (hreadable : ∀ c ∈ field.value.toList, isReadableChar c = true)
      (hvalue : field.value.toList = "Bearer ".toList ++ rest) :
      Holds hs t .authorization (String.ofList (trim rest))
  | query {token q : String} (hquery : t.query = some q)
      (hfirst : IsFirst "token" token (splitAt '&' q.toList)) : Holds hs t .query token

section First

variable {name value : String} {pairs : List (List Char)}

/-- The value of the first pair of a name is what is found. -/
theorem findSome?_valueOf? (hname : '=' ∉ name.toList) :
    pairs.findSome? (valueOf? name) = some value ↔ IsFirst name value pairs := by
  rw [List.findSome?_eq_some_iff]
  constructor
  · rintro ⟨before, pair, after, rfl, hpair, hbefore⟩
    rw [valueOf?_eq_some_iff hname] at hpair
    refine ⟨before, after, hpair ▸ rfl, fun p hp other heq => ?_⟩
    have hnone := hbefore p hp
    rw [heq, valueOf?_pairOf hname] at hnone
    cases hnone
  · rintro ⟨before, after, rfl, hbefore⟩
    exact ⟨before, _, after, rfl, valueOf?_pairOf hname,
      fun p hp => valueOf?_eq_none (hbefore p hp)⟩

end First

section Holds

variable {hs : Headers} {t : Target} {token : String} {c : Carrier}

/-- Looking in one row after another is looking in all of them as one. -/
theorem findSome?_flatMap {α : Type} (row : α → List (List Char)) (f : List Char → Option String)
    (xs : List α) : (xs.flatMap row).findSome? f = xs.findSome? fun x => (row x).findSome? f := by
  induction xs with
  | nil => rfl
  | cons x xs ih =>
    rw [List.flatMap_cons, List.findSome?_append, ih, List.findSome?_cons]
    cases (row x).findSome? f with
    | none => rfl
    | some v => rfl

theorem fromCookie?_eq_findSome? (hs : Headers) :
    fromCookie? hs = (cookies hs).findSome? (valueOf? cookieName) := by
  rw [cookies, findSome?_flatMap, fromCookie?]
  simp only [List.findSome?_map]
  rfl

theorem fromAuthorization?_eq_some_iff : fromAuthorization? hs = some token ↔
    ∃ field rest, Headers.first? hs "authorization" = some field ∧
      (∀ c ∈ field.value.toList, isReadableChar c = true) ∧
      field.value.toList = "Bearer ".toList ++ rest ∧ token = String.ofList (trim rest) := by
  simp only [fromAuthorization?, Headers.text?, Option.bind_eq_some_iff, Header.text?,
    Option.ite_none_right_eq_some, List.all_eq_true, Option.some.injEq, List.isPrefixOf_iff_prefix]
  constructor
  · rintro ⟨_, ⟨field, hfield, hreadable, rfl⟩, ⟨rest, hvalue⟩, rfl⟩
    refine ⟨field, rest, hfield, hreadable, hvalue.symm, ?_⟩
    rw [← hvalue, List.drop_left]
  · rintro ⟨field, rest, hfield, hreadable, hvalue, rfl⟩
    refine ⟨_, ⟨field, hfield, hreadable, rfl⟩, ⟨rest, hvalue.symm⟩, ?_⟩
    rw [hvalue, List.drop_left]

theorem fromQuery?_eq_some_iff : fromQuery? t = some token ↔
    ∃ q, t.query = some q ∧ IsFirst "token" token (splitAt '&' q.toList) := by
  simp only [← findSome?_valueOf? (by decide : '=' ∉ "token".toList)]
  exact Option.bind_eq_some_iff

theorem Carrier.holds_iff : c.Holds hs t token ↔ c.token? hs t = some token := by
  cases c with
  | cookie =>
    rw [token?, fromCookie?_eq_findSome?, findSome?_valueOf? (by decide)]
    constructor
    · rintro ⟨hfirst⟩
      exact hfirst
    · exact .cookie
  | authorization =>
    rw [token?, fromAuthorization?_eq_some_iff]
    constructor
    · rintro (_ | ⟨hfield, hreadable, hvalue⟩)
      exact ⟨_, _, hfield, hreadable, hvalue, rfl⟩
    · rintro ⟨field, rest, hfield, hreadable, hvalue, rfl⟩
      exact .authorization hfield hreadable hvalue
  | query =>
    rw [token?, fromQuery?_eq_some_iff]
    constructor
    · rintro (_ | _ | ⟨hquery, hfirst⟩)
      exact ⟨_, hquery, hfirst⟩
    · rintro ⟨q, hquery, hfirst⟩
      exact .query hquery hfirst

end Holds

/-- The first place with a token has this one. -/
def Carrier.Decides (hs : Headers) (t : Target) (c : Carrier) (token : String) : Prop :=
  c.Holds hs t token ∧ ∀ d ∈ c.earlier, ∀ other, ¬ d.Holds hs t other

/-- The first token of a request that is not empty. -/
def Presents (hs : Headers) (t : Target) (token : String) : Prop :=
  token ≠ "" ∧ ∃ c : Carrier, c.Holds hs t token ∧
    ∀ d ∈ c.earlier, ∀ other, d.Holds hs t other → other = ""

section Precedence

variable {hs : Headers} {t : Target} {token other : String} {c d : Carrier}

theorem Carrier.Holds.token_unique (hc : c.Holds hs t token) (hother : c.Holds hs t other) :
    token = other := by
  rw [holds_iff] at hc hother
  exact Option.some.inj (hc.symm.trans hother)

/-- No two places decide. -/
theorem Carrier.Decides.unique (hc : c.Decides hs t token) (hd : d.Decides hs t other) :
    token = other := by
  rcases trichotomy c d with rfl | hbefore | hbefore
  · exact hc.1.token_unique hd.1
  · exact absurd hc.1 (hd.2 c hbefore token)
  · exact absurd hd.1 (hc.2 d hbefore other)

/-- If there is a token at all, some place decides. -/
theorem Carrier.Holds.exists_decides (hc : c.Holds hs t token) :
    ∃ d : Carrier, ∃ other, d.Decides hs t other := by
  obtain ⟨d, ⟨other, hd⟩, hbefore⟩ :=
    exists_first (P := fun d => ∃ other, d.Holds hs t other) ⟨c, token, hc⟩
  exact ⟨d, other, hd, fun e he => not_exists.mp (hbefore e he)⟩

/-- If not all tokens are empty, the request presents one. -/
theorem Carrier.Holds.exists_presents (hc : c.Holds hs t token) (hne : token ≠ "") :
    ∃ other, Presents hs t other := by
  obtain ⟨d, ⟨other, hd, hfull⟩, hbefore⟩ :=
    exists_first (P := fun d => ∃ other, d.Holds hs t other ∧ other ≠ "") ⟨c, token, hc, hne⟩
  refine ⟨other, hfull, d, hd, fun e he text htext => ?_⟩
  exact Decidable.not_not.mp fun hother => hbefore e he ⟨text, htext, hother⟩

/-- A token that decides is presented, unless it is empty. -/
theorem Carrier.Decides.presents (hc : c.Decides hs t token) (hne : token ≠ "") :
    Presents hs t token :=
  ⟨hne, c, hc.1, fun d hd other hother => absurd hother (hc.2 d hd other)⟩

theorem Presents.unique (hp : Presents hs t token) (hp' : Presents hs t other) :
    token = other := by
  obtain ⟨hne, c, hc, hbefore⟩ := hp
  obtain ⟨hne', d, hd, hbefore'⟩ := hp'
  rcases Carrier.trichotomy c d with rfl | hearlier | hearlier
  · exact hc.token_unique hd
  · exact absurd (hbefore' c hearlier token hc) hne
  · exact absurd (hbefore d hearlier other hd) hne'

theorem Carrier.decides_iff : c.Decides hs t token ↔
    c.token? hs t = some token ∧ ∀ d ∈ c.earlier, d.token? hs t = none := by
  simp only [Decides, holds_iff, Option.eq_none_iff_forall_ne_some]

/-- The places in turn, until one has a token. -/
theorem exists_decides_iff : (∃ c : Carrier, c.Decides hs t token) ↔
    (fromCookie? hs).or ((fromAuthorization? hs).or (fromQuery? t)) = some token := by
  simp only [Carrier.decides_iff, Option.or_eq_some_iff]
  constructor
  · rintro ⟨c, hc, hbefore⟩
    cases c with
    | cookie => exact Or.inl hc
    | authorization => exact Or.inr ⟨hbefore .cookie (by decide), Or.inl hc⟩
    | query =>
      exact Or.inr ⟨hbefore .cookie (by decide), Or.inr ⟨hbefore .authorization (by decide), hc⟩⟩
  · rintro (hcookie | ⟨hcookie, hauthorization | ⟨hauthorization, hquery⟩⟩)
    · exact ⟨.cookie, hcookie, List.forall_mem_nil _⟩
    · exact ⟨.authorization, hauthorization, List.forall_mem_singleton.mpr hcookie⟩
    · exact ⟨.query, hquery, List.forall_mem_cons.mpr
        ⟨hcookie, List.forall_mem_singleton.mpr hauthorization⟩⟩

theorem extract?_eq_some_iff :
    extract? hs t = some token ↔ token ≠ "" ∧ ∃ c : Carrier, c.Decides hs t token := by
  rw [extract?, Option.filter_eq_some_iff, ← exists_decides_iff, Bool.not_eq_true',
    Bool.eq_false_iff, ne_eq, String.isEmpty_iff]
  exact and_comm

theorem authenticate_eq_missingToken_iff (secret : String) (now : Nat) :
    authenticate secret now hs t = .error .missingToken ↔ extract? hs t = none := by
  rw [authenticate]
  cases extract? hs t with
  | none => exact iff_of_true rfl rfl
  | some token =>
    refine iff_of_false (fun hmissing => ?_) (Option.some_ne_none token)
    simp only [validate] at hmissing
    split at hmissing
    · cases hmissing
    · cases hmissing

theorem extract?_eq_none_iff : extract? hs t = none ↔
    ∀ (c : Carrier) (token : String), c.Decides hs t token → token = "" := by
  rw [Option.eq_none_iff_forall_ne_some]
  constructor
  · intro hnone c token hc
    exact Decidable.not_not.mp fun hne =>
      hnone token (extract?_eq_some_iff.mpr ⟨hne, c, hc⟩)
  · intro hempty token hsome
    obtain ⟨hne, c, hc⟩ := extract?_eq_some_iff.mp hsome
    exact hne (hempty c token hc)

/-- A request presents the token that decides, if not an empty one does. -/
theorem Presents.exists_decides (hp : Presents hs t token)
    (hfull : ∀ c : Carrier, ¬ c.Decides hs t "") : ∃ c : Carrier, c.Decides hs t token := by
  have ⟨_, c, hc, _⟩ := hp
  obtain ⟨d, other, hd⟩ := hc.exists_decides
  have hne : other ≠ "" := fun hempty => hfull d (hempty ▸ hd)
  exact ⟨d, (hd.presents hne).unique hp ▸ hd⟩

end Precedence

/-- A request comes with the token of the first place that has one, unless this is empty; then it
counts as one without a token.  So it comes with the first token that is not empty just if no empty
one is found before. -/
theorem extract_presented_iff (hs : Headers) (t : Target) :
    (∀ token, extract? hs t = some token ↔ token ≠ "" ∧ ∃ c : Carrier, c.Decides hs t token) ∧
      (∀ secret now, authenticate secret now hs t = .error .missingToken ↔
        ∀ (c : Carrier) (token : String), c.Decides hs t token → token = "") ∧
      ((∀ token, extract? hs t = some token ↔ Presents hs t token) ↔
        ∀ c : Carrier, c.Decides hs t "" → ∀ (d : Carrier) (token : String),
          d.Holds hs t token → token = "") := by
  refine ⟨fun token => extract?_eq_some_iff, fun secret now => ?_, ?_⟩
  · rw [authenticate_eq_missingToken_iff, extract?_eq_none_iff]
  · simp only [extract?_eq_some_iff]
    constructor
    · intro hpresented c hc d token hd
      refine Decidable.not_not.mp fun hne => ?_
      obtain ⟨other, hother⟩ := hd.exists_presents hne
      obtain ⟨hfull, e, he⟩ := (hpresented other).mpr hother
      exact hfull (he.unique hc)
    · intro hempty token
      constructor
      · rintro ⟨hne, c, hc⟩
        exact hc.presents hne
      · intro hp
        have ⟨hne, c, hc, _⟩ := hp
        exact ⟨hne, hp.exists_decides fun d hd => hne (hempty d hd c token hc)⟩

/-- The cookie has been cleared, but the token in the authorization field is not looked at. -/
theorem cleared_cookie_hides_token :
    let hs : Headers := [⟨"cookie", "chirm_token="⟩, ⟨"authorization", "Bearer abc"⟩]
    let t : Target := ⟨"/ws", none⟩
    Presents hs t "abc" ∧ extract? hs t = none ∧
      ∀ secret now, authenticate secret now hs t = .error .missingToken := by
  intro hs t
  have hnone : extract? hs t = none := by decide
  refine ⟨⟨by decide, .authorization, Carrier.holds_iff.mpr (by decide), ?_⟩, hnone,
    fun secret now => (authenticate_eq_missingToken_iff secret now).mpr hnone⟩
  intro d hd other hother
  rw [List.mem_singleton.mp hd, Carrier.holds_iff] at hother
  exact Option.some.inj (hother.symm.trans (by decide))

end ChatHub.Token
