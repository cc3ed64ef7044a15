import ChatHub.Proofs.Text.Split
import ChatHub.Token.Carrier
/-!
How a token comes with a request.  A token of plain characters comes through a cookie, through the
authorization field and through the query as it was, whatever stands around it there.
-/

namespace ChatHub.Text

theorem eq_of_cutAt {c : Char} {cs before after : List Char}
    (h : cutAt c cs = (before, some after)) : cs = before ++ c :: after := by
  induction cs generalizing before with
  | nil => cases h
  | cons d cs ih =>
    rw [cutAt] at h
    split at h
    next heq =>
      cases h
      rw [heq, List.nil_append]
    next =>
      cases hcut : cutAt c cs with
      | mk first rest =>
        rw [hcut] at h
        cases h
        rw [ih hcut, List.cons_append]

end ChatHub.Text

namespace ChatHub.Token

open Http Text

/-- No character of the text means anything where tokens are carried. -/
def IsPlain (text : String) : Prop :=
  ∀ c ∈ text.toList, c ≠ ';' ∧ c ≠ '&' ∧ isBlankOrTab c = false ∧ isReadableChar c = true

instance (text : String) : Decidable (IsPlain text) := List.decidableBAll _ _

/-- Blanks and tabs. -/
def IsMargin (cs : List Char) : Prop := ∀ c ∈ cs, isBlankOrTab c = true

/-- A pair of a name and a value, as text. -/
def pairOf (name token : String) : List Char := name.toList ++ '=' :: token.toList

/-- A request carries a token, and no other one that is looked at before it. -/
inductive Carries (token : String) (hs : Headers) (t : Target) : Prop
  /-- Among the cookies of the request, of which none before it has the name. -/
  | cookie {field : Header} {before after : List (List Char)} {left right : List Char}
      (hfield : Headers.all hs "cookie" = [field])
      (hreadable : ∀ c ∈ field.value.toList, isReadableChar c = true)
      (hvalue : field.value.toList =
        joinWith ';' (before ++ (left ++ (pairOf cookieName token ++ right)) :: after))
      (hleft : IsMargin left) (hright : IsMargin right)
      (hapart : ∀ pair ∈ before ++ after, ';' ∉ pair)
      (hother : ∀ pair ∈ before, ∀ value, trim pair ≠ pairOf cookieName value)
  /-- In the authorization field, if no cookie has the name. -/
  | bearer {field : Header} {left right : List Char} (hcookie : fromCookie? hs = none)
      (hfield : Headers.first? hs "authorization" = some field)
      (hvalue : field.value.toList = "Bearer ".toList ++ (left ++ (token.toList ++ right)))
      (hleft : IsMargin left) (hright : IsMargin right)
  /-- In the query, if the token is in neither of them. -/
  | query {q : String} {before after : List (List Char)} (hcookie : fromCookie? hs = none)
      (hauthorization : fromAuthorization? hs = none) (hquery : t.query = some q)
      (hvalue : q.toList = joinWith '&' (before ++ pairOf "token" token :: after))
      (hapart : ∀ pair ∈ before ++ after, '&' ∉ pair)
      (hother : ∀ pair ∈ before, ∀ value, pair ≠ pairOf "token" value)

/-- The query may be nothing but the token. -/
theorem carries_of_query (token path : String) {hs : Headers} (hcookie : fromCookie? hs = none)
    (hauthorization : fromAuthorization? hs = none) :
    Carries token hs ⟨path, some ("token=" ++ token)⟩ := by
  have hvalue : ("token=" ++ token).toList = joinWith '&' ([] ++ pairOf "token" token :: []) :=
    String.toList_append
  exact .query hcookie hauthorization rfl hvalue nofun nofun

section Pairs

variable {token name : String}

/-- Whether a text is a pair of a name, and its value. -/
def valueOf? (name : String) (pair : List Char) : Option String :=
  match cutAt '=' pair with
  | (n, some value) => if String.ofList n == name then some (String.ofList value) else none
  | (_, none) => none

theorem valueOf?_pairOf (hname : '=' ∉ name.toList) :
    valueOf? name (pairOf name token) = some token := by
  simp only [valueOf?, pairOf, cutAt_append hname, String.ofList_toList, beq_self_eq_true, if_true]

theorem eq_pairOf_of_valueOf? {pair : List Char} (hvalue : valueOf? name pair = some token) :
    pair = pairOf name token := by
  rw [valueOf?] at hvalue
  split at hvalue
  next n value hcut =>
    rw [Option.ite_none_right_eq_some, beq_iff_eq, Option.some.injEq] at hvalue
    rw [eq_of_cutAt hcut, pairOf, ← hvalue.1, ← hvalue.2, String.toList_ofList,
      String.toList_ofList]
  next => cases hvalue

theorem valueOf?_eq_none {pair : List Char} (hpair : ∀ value, pair ≠ pairOf name value) :
    valueOf? name pair = none := by
  rw [Option.eq_none_iff_forall_ne_some]
  exact fun value hvalue => hpair value (eq_pairOf_of_valueOf? hvalue)

theorem valueOf?_eq_some_iff {pair : List Char} (hname : '=' ∉ name.toList) :
    valueOf? name pair = some token ↔ pair = pairOf name token := by
  constructor
  · exact eq_pairOf_of_valueOf?
  · rintro rfl
    exact valueOf?_pairOf hname

/-- A row of pairs is cut where they meet. -/
theorem splitAt_row {c : Char} {before after : List (List Char)} {pair : List Char}
    (hapart : ∀ p ∈ before ++ after, c ∉ p) (hpair : c ∉ pair) :
    splitAt c (joinWith c (before ++ pair :: after)) = before ++ pair :: after := by
  refine splitAt_joinWith (List.append_ne_nil_of_right_ne_nil _ (List.cons_ne_nil _ _)) ?_
  intro p hp
  rcases List.mem_append.mp hp with hp | hp
  · exact hapart p (List.mem_append_left after hp)
  · rcases List.mem_cons.mp hp with rfl | hp
    · exact hpair
    · exact hapart p (List.mem_append_right before hp)

/-- The first pair of a name in a row is found. -/
theorem findSome?_pairs {before after : List (List Char)} {pair : List Char}
    {f : List Char → Option String} (hbefore : ∀ p ∈ before, f p = none)
    (hpair : f pair = some token) : (before ++ pair :: after).findSome? f = some token := by
  rw [List.findSome?_append, List.findSome?_eq_none_iff.mpr hbefore, Option.none_or,
    List.findSome?_cons_of_isSome]
  · exact hpair
  · rw [hpair]
    rfl

end Pairs

section Plain

variable {token : String}

theorem isPlain_pairOf {name : String} (hname : IsPlain name) (htoken : IsPlain token) :
    IsPlain (String.ofList (pairOf name token)) := by
  intro c hc
  rw [String.toList_ofList, pairOf] at hc
  rcases List.mem_append.mp hc with hc | hc
  · exact hname c hc
  · rcases List.mem_cons.mp hc with rfl | hc
    · decide
    · exact htoken c hc

section Margins

variable {left right : List Char} (hleft : IsMargin left) (hright : IsMargin right)

include hleft hright

theorem trim_of_isPlain (htoken : IsPlain token) :
    trim (left ++ (token.toList ++ right)) = token.toList :=
  trimWith_append hleft hright fun c hc => (htoken c hc).2.2.1

/-- A character between margins is one of a margin or of the text. -/
theorem forall_mem_margins {p : Char → Prop} {cs : List Char} (hmargin : p ' ' ∧ p '\t')
    (hcs : ∀ c ∈ cs, p c) : ∀ c ∈ left ++ (cs ++ right), p c := by
  have hblank {c : Char} (hc : isBlankOrTab c = true) : p c := by
    rw [isBlankOrTab, Bool.or_eq_true, beq_iff_eq, beq_iff_eq] at hc
    rcases hc with rfl | rfl
    · exact hmargin.1
    · exact hmargin.2
  intro c hc
  rcases List.mem_append.mp hc with hc | hc
  · exact hblank (hleft c hc)
  · rcases List.mem_append.mp hc with hc | hc
    · exact hcs c hc
    · exact hblank (hright c hc)

end Margins

end Plain

section Carries

variable {token : String} {hs : Headers} {t : Target} (htoken : IsPlain token)

include htoken

theorem fromCookie?_eq {field : Header} {before after : List (List Char)} {left right : List Char}
    (hfield : Headers.all hs "cookie" = [field])
    (hreadable : ∀ c ∈ field.value.toList, isReadableChar c = true)
    (hvalue : field.value.toList =
      joinWith ';' (before ++ (left ++ (pairOf cookieName token ++ right)) :: after))
    (hleft : IsMargin left) (hright : IsMargin right)
    (hapart : ∀ pair ∈ before ++ after, ';' ∉ pair)
    (hother : ∀ pair ∈ before, ∀ value, trim pair ≠ pairOf cookieName value) :
    fromCookie? hs = some token := by
  have hname : IsPlain cookieName := by decide
  have hpair := isPlain_pairOf hname htoken
  have hwhole : ∀ c ∈ left ++ (pairOf cookieName token ++ right), c ≠ ';' := by
    refine forall_mem_margins hleft hright ⟨by decide, by decide⟩ fun c hc => (hpair c ?_).1
    rwa [String.toList_ofList]
  have hfound : (before ++ (left ++ (pairOf cookieName token ++ right)) :: after).findSome?
      (pairValue? cookieName) = some token := by
    refine findSome?_pairs (fun p hp => valueOf?_eq_none (hother p hp)) ?_
    have htrim := trim_of_isPlain hleft hright hpair
    rw [String.toList_ofList] at htrim
    change valueOf? cookieName (trim _) = some token
    rw [htrim]
    exact valueOf?_pairOf (by decide)
  have htext : field.text? = some field.value := if_pos (List.all_eq_true.mpr hreadable)
  rw [fromCookie?, hfield, List.filterMap_cons_some htext, List.filterMap_nil,
    List.findSome?_singleton, hvalue, splitAt_row hapart fun h => hwhole ';' h rfl, hfound]

theorem fromAuthorization?_eq {field : Header} {left right : List Char}
    (hfield : Headers.first? hs "authorization" = some field)
    (hvalue : field.value.toList = "Bearer ".toList ++ (left ++ (token.toList ++ right)))
    (hleft : IsMargin left) (hright : IsMargin right) : fromAuthorization? hs = some token := by
  have hreadable : ∀ c ∈ field.value.toList, isReadableChar c = true := by
    rw [hvalue]
    intro c hc
    rcases List.mem_append.mp hc with hc | hc
    · have hscheme : "Bearer ".toList.all isReadableChar = true := by decide
      exact List.all_eq_true.mp hscheme c hc
    · exact forall_mem_margins hleft hright ⟨by decide, by decide⟩
        (fun c hc => (htoken c hc).2.2.2) c hc
  have htext : Headers.text? hs "authorization" = some field.value := by
    rw [Headers.text?, hfield, Option.bind_some]
    exact if_pos (List.all_eq_true.mpr hreadable)
  have hscheme : "Bearer ".toList.isPrefixOf field.value.toList = true := by
    rw [hvalue]
    exact List.isPrefixOf_iff_prefix.mpr (List.prefix_append _ _)
  rw [fromAuthorization?, htext, Option.bind_some]
  simp only [hscheme, if_true]
  rw [hvalue, List.drop_left, trim_of_isPlain hleft hright htoken, String.ofList_toList]

theorem fromQuery?_eq {q : String} {before after : List (List Char)} (hquery : t.query = some q)
    (hvalue : q.toList = joinWith '&' (before ++ pairOf "token" token :: after))
    (hapart : ∀ pair ∈ before ++ after, '&' ∉ pair)
    (hother : ∀ pair ∈ before, ∀ value, pair ≠ pairOf "token" value) :
    fromQuery? t = some token := by
  have hname : IsPlain "token" := by decide
  have hpair : '&' ∉ pairOf "token" token := by
    rw [← String.toList_ofList (l := pairOf "token" token)]
    exact fun h => (isPlain_pairOf hname htoken '&' h).2.1 rfl
  have hfound : (before ++ pairOf "token" token :: after).findSome? (valueOf? "token") =
      some token :=
    findSome?_pairs (fun p hp => valueOf?_eq_none (hother p hp)) (valueOf?_pairOf (by decide))
  rw [fromQuery?, Target.parameter?, hquery, Option.bind_some, hvalue, splitAt_row hapart hpair]
  exact hfound

theorem Carries.extract?_eq (hne : token ≠ "") (h : Carries token hs t) :
    extract? hs t = some token := by
  have hfilter : (some token).filter (fun s : String => !s.isEmpty) = some token := by
    refine Option.filter_some_pos ?_
    rw [Bool.not_eq_true', Bool.eq_false_iff, ne_eq, String.isEmpty_iff]
    exact hne
  rw [extract?]
  cases h with
  | cookie hfield hreadable hvalue hleft hright hapart hother =>
    rw [fromCookie?_eq htoken hfield hreadable hvalue hleft hright hapart hother, Option.some_or,
      hfilter]
  | bearer hcookie hfield hvalue hleft hright =>
    rw [hcookie, Option.none_or, fromAuthorization?_eq htoken hfield hvalue hleft hright,
      Option.some_or, hfilter]
  | query hcookie hauthorization hquery hvalue hapart hother =>
    rw [hcookie, Option.none_or, hauthorization, Option.none_or,
      fromQuery?_eq htoken hquery hvalue hapart hother, hfilter]

end Carries

end ChatHub.Token
