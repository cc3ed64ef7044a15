import ChatHub.Proofs.Token.Acceptance
import ChatHub.Proofs.Token.Carrying
import ChatHub.Proofs.Token.Writing
/-!
Signed tokens.  What was signed comes back from whoever holds the secret, however the token came to
him, and from nobody else.
-/

namespace ChatHub.Token

/-- A text as it stands in a token. -/
def spelled (cs : List Char) : List Char := Base64Url.encode (utf8 (String.ofList cs))

theorem ofBytes_utf8 (cs : List Char) :
    Part.ofBytes (utf8 (String.ofList cs)) = Part.ofText cs := by
  rw [utf8, Text.toUTF8_ofList, Part.ofText]

section Sign

variable (secret : String) (c : Claims)

/-- Signing claims puts them behind the one header there is. -/
theorem sign_eq_sealed : sign secret c =
    sealed secret (utf8 (String.ofList headerText)) (utf8 (String.ofList c.write)) := by
  rw [sign, sealed, List.append_assoc, List.cons_append]
  rfl

theorem toList_sign : (sign secret c).toList =
    spelled headerText ++ '.' :: (spelled c.write ++ '.' ::
      Base64Url.encode (mac secret (spelled headerText) (spelled c.write))) := by
  rw [sign_eq_sealed]
  exact toList_sealed ..

/-- Signed tokens are made of characters that are safe in addresses, and of dots. -/
theorem forall_mem_sign {p : Char → Prop} (hdigit : ∀ n < 64, p (Base64Url.digit n))
    (hdot : p '.') : ∀ d ∈ (sign secret c).toList, p d := by
  intro d hd
  rw [toList_sign] at hd
  rcases List.mem_append.mp hd with hd | hd
  · exact Base64Url.forall_mem_encode hdigit d hd
  · rcases List.mem_cons.mp hd with rfl | hd
    · exact hdot
    · rcases List.mem_append.mp hd with hd | hd
      · exact Base64Url.forall_mem_encode hdigit d hd
      · rcases List.mem_cons.mp hd with rfl | hd
        · exact hdot
        · exact Base64Url.forall_mem_encode hdigit d hd

theorem isPlain_sign : IsPlain (sign secret c) :=
  forall_mem_sign secret c (by decide) (by decide)

theorem sign_ne_empty : sign secret c ≠ "" := by
  intro hempty
  have hlist := toList_sign secret c
  rw [hempty] at hlist
  exact List.append_ne_nil_of_right_ne_nil _ (List.cons_ne_nil _ _) hlist.symm

end Sign

section Genuine

variable {secret : String} {now : Nat} {c : Claims}

theorem genuine_sign (huser : c.user ≠ "") (hexpires : c.expires < UInt64.size)
    (hissued : c.issued < UInt64.size) (hnow : now ≤ c.expires + leeway) :
    Genuine secret now (sign secret c) c := by
  have hheader : IsHeader (.ofBytes (utf8 (String.ofList headerText))) "HS256" := by
    rw [ofBytes_utf8]
    exact isHeader_headerText
  have hclaims : States (.ofBytes (utf8 (String.ofList c.write))) c := by
    rw [ofBytes_utf8]
    exact states_write hexpires hissued
  have hunaddressed : Unaddressed (.ofBytes (utf8 (String.ofList c.write))) := by
    rw [ofBytes_utf8]
    exact unaddressed_write c
  rw [sign_eq_sealed]
  exact genuine_sealed hheader hclaims hunaddressed hnow huser

/-- The codes of a message under two secrets. -/
theorem mac_eq_of_genuine_sign {other : String} {c' : Claims}
    (h : Genuine other now (sign secret c) c') :
    mac other (spelled headerText) (spelled c.write) =
      mac secret (spelled headerText) (spelled c.write) :=
  (Base64Url.encode_inj.mp (h.code_eq (toList_sign secret c))).symm

theorem authenticate_of_carries {token : String} {hs : Http.Headers} {t : Http.Target}
    (hplain : IsPlain token) (hne : token ≠ "") (h : Carries token hs t) :
    authenticate secret now hs t = validate secret now token := by
  rw [authenticate, h.extract?_eq hplain hne]

end Genuine

/-- A signed token gives back what was signed to one who holds the secret, also when it comes with a
request; one who holds another secret refuses it unless that gives the same code. -/
theorem signed_claims_come_back {secret : String} {now : Nat} {c : Claims} (huser : c.user ≠ "")
    (hexpires : c.expires < UInt64.size) (hissued : c.issued < UInt64.size)
    (hnow : now ≤ c.expires + leeway) :
    validate secret now (sign secret c) = .ok c ∧
      (∀ hs t, Carries (sign secret c) hs t → authenticate secret now hs t = .ok c) ∧
      ∀ other, mac other (spelled headerText) (spelled c.write) ≠
          mac secret (spelled headerText) (spelled c.write) →
        validate other now (sign secret c) = .error .invalidToken ∧
          ∀ hs t, Carries (sign secret c) hs t →
            authenticate other now hs t = .error .invalidToken := by
  have hok : validate secret now (sign secret c) = .ok c :=
    validate_eq_ok.mpr (genuine_sign huser hexpires hissued hnow)
  have hcarried {s : String} {hs : Http.Headers} {t : Http.Target}
      (h : Carries (sign secret c) hs t) :
      authenticate s now hs t = validate s now (sign secret c) :=
    authenticate_of_carries (isPlain_sign secret c) (sign_ne_empty secret c) h
  refine ⟨hok, fun hs t h => (hcarried h).trans hok, fun other hother => ?_⟩
  have hrefused : validate other now (sign secret c) = .error .invalidToken :=
    validate_eq_error fun c' hgenuine => hother (mac_eq_of_genuine_sign hgenuine)
  exact ⟨hrefused, fun hs t h => (hcarried h).trans hrefused⟩

/-- Ann comes with her token in the query, in the last second in which it is good. -/
theorem ann_is_known_again :
    let ann : Claims := ⟨"ann", "Ann É.", true, 4102444800, 1700000000⟩
    let query := "token=" ++ sign "secret" ann
    authenticate "secret" 4102444860 [] ⟨"/ws", some query⟩ = .ok ann := by
  intro ann query
  have huser : ann.user ≠ "" := by decide
  have hexpires : ann.expires < UInt64.size := by decide
  have hissued : ann.issued < UInt64.size := by decide
  have hnow : 4102444860 ≤ ann.expires + leeway := by decide
  exact (signed_claims_come_back huser hexpires hissued hnow).2.1 [] ⟨"/ws", some query⟩
    (carries_of_query _ _ rfl rfl)

end ChatHub.Token
