import ChatHub.Proofs.Text.Split
import ChatHub.Proofs.Token.Base64Url
import ChatHub.Proofs.Token.Contents
/-!
Which tokens are accepted.  A token is read in one way only, and its third part is fixed by the two
others and the secret, so nothing can be changed about it without knowing the secret.  A token is
still good for a while after it has expired, and only what is looked at in it has to be text.
-/

namespace ChatHub.Token

/-- Three texts without dots, with dots between them. -/
structure Parts (token : String) (header payload code : List Char) : Prop where
  text : token.toList = header ++ '.' :: (payload ++ '.' :: code)
  header : '.' ∉ header
  payload : '.' ∉ payload
  code : '.' ∉ code

theorem splitAt_eq_three {token : String} {header payload code : List Char} :
    Text.splitAt '.' token.toList = [header, payload, code] ↔
      Parts token header payload code := by
  rw [Text.splitAt_eq_iff]
  constructor
  · rintro ⟨-, hdots, htext⟩
    exact ⟨htext, hdots _ (by simp), hdots _ (by simp), hdots _ (by simp)⟩
  · rintro ⟨htext, hheader, hpayload, hcode⟩
    refine ⟨List.cons_ne_nil _ _, ?_, htext⟩
    rintro part hpart
    simp only [List.mem_cons, List.not_mem_nil, or_false] at hpart
    rcases hpart with rfl | rfl | rfl
    · exact hheader
    · exact hpayload
    · exact hcode

section Parts

variable {token : String} {header payload code : List Char}

theorem Parts.unique {header' payload' code' : List Char} (h : Parts token header payload code)
    (h' : Parts token header' payload' code') :
    header = header' ∧ payload = payload' ∧ code = code' := by
  have hsplit := (splitAt_eq_three.mpr h).symm.trans (splitAt_eq_three.mpr h')
  simpa only [List.cons.injEq, and_true] using hsplit

/-- A text that has three parts is not cut anywhere else. -/
theorem Parts.of_text {header' payload' code' : List Char} (h : Parts token header' payload' code')
    (htext : token.toList = header ++ '.' :: (payload ++ '.' :: code)) :
    Parts token header payload code := by
  have hdots : token.toList.count '.' = 2 := by
    rw [h.text]
    simp only [List.count_append, List.count_cons_self, List.count_eq_zero.mpr h.header,
      List.count_eq_zero.mpr h.payload, List.count_eq_zero.mpr h.code]
  rw [htext] at hdots
  simp only [List.count_append, List.count_cons_self] at hdots
  refine ⟨htext, ?_, ?_, ?_⟩
  all_goals
    rw [← List.count_eq_zero]
    omega

end Parts

/-- The bytes of the code over a header and a payload as they are written in a token. -/
def mac (secret : String) (header payload : List Char) : List UInt8 :=
  Sha256.hmac (utf8 secret) (utf8 (String.ofList (header ++ '.' :: payload)))

/-- The token was made by one who knows the secret, for the bearer of these claims, and has not
expired more than the leeway ago. -/
inductive Genuine (secret : String) (now : Nat) (token : String) (c : Claims) : Prop where
  | intro {header payload code : List Char} {headerBytes payloadBytes : List UInt8}
      (hparts : Parts token header payload code)
      (hcode : code = Base64Url.encode (mac secret header payload))
      (hheader : header = Base64Url.encode headerBytes)
      (hmethod : IsHeader (.ofBytes headerBytes) "HS256")
      (hpayload : payload = Base64Url.encode payloadBytes)
      (hclaims : States (.ofBytes payloadBytes) c)
      (hunaddressed : Unaddressed (.ofBytes payloadBytes))
      (hnow : now ≤ c.expires + leeway) (huser : c.user ≠ "")

/-- The token with this header and this payload that is made with the secret. -/
def sealed (secret : String) (header payload : List UInt8) : String :=
  let first := Base64Url.encode header
  let second := Base64Url.encode payload
  String.ofList (first ++ '.' :: (second ++ '.' :: Base64Url.encode (mac secret first second)))

section Sealed

variable (secret : String) (header payload : List UInt8)

theorem toList_sealed : (sealed secret header payload).toList =
    Base64Url.encode header ++ '.' :: (Base64Url.encode payload ++ '.' ::
      Base64Url.encode (mac secret (Base64Url.encode header) (Base64Url.encode payload))) :=
  String.toList_ofList ..

theorem parts_sealed : Parts (sealed secret header payload) (Base64Url.encode header)
    (Base64Url.encode payload)
    (Base64Url.encode (mac secret (Base64Url.encode header) (Base64Url.encode payload))) := by
  have hdot (bytes : List UInt8) : '.' ∉ Base64Url.encode bytes := by
    have hdigit : ∀ d ∈ Base64Url.encode bytes, d ≠ '.' := Base64Url.forall_mem_encode (by decide)
    exact fun h => hdigit '.' h rfl
  exact ⟨toList_sealed secret header payload, hdot _, hdot _, hdot _⟩

variable {secret header payload} {now : Nat} {c : Claims}

theorem genuine_sealed (hmethod : IsHeader (.ofBytes header) "HS256")
    (hclaims : States (.ofBytes payload) c) (hunaddressed : Unaddressed (.ofBytes payload))
    (hnow : now ≤ c.expires + leeway) (huser : c.user ≠ "") :
    Genuine secret now (sealed secret header payload) c :=
  ⟨parts_sealed secret header payload, rfl, rfl, hmethod, rfl, hclaims, hunaddressed, hnow, huser⟩

end Sealed

theorem decode?_eq_some {cs : List Char} {part : Part} :
    Part.decode? cs = some part ↔
      ∃ bytes, cs = Base64Url.encode bytes ∧ Part.ofBytes bytes = part := by
  simp only [Part.decode?, Option.map_eq_some_iff, Base64Url.decode?_eq_some]

theorem claims?_eq_some {secret : String} {now : Nat} {token : String} {c : Claims} :
    claims? secret now token = some c ↔ Genuine secret now token c := by
  rw [claims?]
  constructor
  · intro h
    split at h
    next header payload code hsplit =>
      rw [splitAt_eq_three] at hsplit
      simp only [Option.bind_eq_bind, Option.bind_none, Option.bind_eq_some_iff,
        Option.ite_none_left_eq_some, readMethod?_eq_some, read?_eq_some, decode?_eq_some,
        Bool.not_eq_true, Bool.not_eq_false', bne_eq_false_iff_eq, standardClaimsAllow_iff,
        Nat.not_lt, Option.some.injEq] at h
      obtain ⟨_, ⟨headerBytes, hheader, rfl⟩, name, hmethod, rfl, hcode, _,
        ⟨payloadBytes, hpayload, rfl⟩, _, hclaims, hunaddressed, hnow, huser, rfl⟩ := h
      refine ⟨hsplit, hcode, hheader, hmethod, hpayload, hclaims, hunaddressed, hnow, ?_⟩
      rintro hempty
      rw [hempty] at huser
      exact absurd huser (by decide)
    next => cases h
  · rintro ⟨hparts, hcode, hheader, hmethod, hpayload, hclaims, hunaddressed, hnow, huser⟩
    have hnamed : c.user.isEmpty = false := by
      rw [Bool.eq_false_iff, ne_eq, String.isEmpty_iff]
      exact huser
    simp only [splitAt_eq_three.mpr hparts, Option.bind_eq_bind, Option.bind_none,
      Option.bind_eq_some_iff, Option.ite_none_left_eq_some, readMethod?_eq_some, read?_eq_some,
      decode?_eq_some, Bool.not_eq_true, Bool.not_eq_false', bne_eq_false_iff_eq,
      standardClaimsAllow_iff, Nat.not_lt, Option.some.injEq]
    exact ⟨_, ⟨_, hheader, rfl⟩, method, hmethod, rfl, hcode, _, ⟨_, hpayload, rfl⟩, c, hclaims,
      hunaddressed, hnow, hnamed, rfl⟩

section Validate

variable {secret : String} {now : Nat} {token : String} {c : Claims}

theorem validate_eq_ok : validate secret now token = .ok c ↔ Genuine secret now token c := by
  rw [← claims?_eq_some, validate]
  cases claims? secret now token <;> simp

theorem validate_eq_error (hnone : ∀ c, ¬Genuine secret now token c) :
    validate secret now token = .error .invalidToken := by
  rw [validate]
  split
  next c hc => exact absurd (claims?_eq_some.mp hc) (hnone c)
  next => rfl

/-- The code of a token is that of its other parts. -/
theorem Genuine.code_eq {header payload code : List Char} (h : Genuine secret now token c)
    (htext : token.toList = header ++ '.' :: (payload ++ '.' :: code)) :
    code = Base64Url.encode (mac secret header payload) := by
  obtain ⟨hparts, hcode⟩ := h
  obtain ⟨rfl, rfl, rfl⟩ := hparts.unique (hparts.of_text htext)
  exact hcode

end Validate

/-- How one who holds the secret decides about a token. -/
structure Verdict (secret : String) (now : Nat) (token : String) : Prop where
  /-- It is accepted for the bearer for whom it was made and for nobody else, -/
  accepted : ∀ c, validate secret now token = .ok c ↔ Genuine secret now token c
  /-- all that is not accepted is refused alike, -/
  refused : (∀ c, ¬Genuine secret now token c) → validate secret now token = .error .invalidToken
  /-- and at no time is there another code for the same header and payload. -/
  rigid : ∀ c header payload code, validate secret now token = .ok c →
    token.toList = header ++ '.' :: (payload ++ '.' :: code) →
      ∀ later code', code' ≠ code →
        validate secret later (String.ofList (header ++ '.' :: (payload ++ '.' :: code'))) =
          .error .invalidToken

/-- A string is accepted just if it is a token that was made with the secret and has not expired
more than the leeway ago, and then no change to its code is. -/
theorem genuine_tokens_alone_accepted (secret : String) (now : Nat) (token : String) :
    Verdict secret now token where
  accepted _ := validate_eq_ok
  refused := validate_eq_error
  rigid c header payload code hok htext later code' hne := by
    refine validate_eq_error fun c' h' => hne ?_
    have hcode := (validate_eq_ok.mp hok).code_eq htext
    have hcode' := h'.code_eq (String.toList_ofList ..)
    rw [hcode, hcode']

/-- Ann comes a minute after her token has expired, and then with one that is no text, since there
is a stray byte in what nobody reads.  She is let in both times. -/
theorem ann_is_let_in :
    let ann (expires : Nat) : Claims := ⟨"ann", "Ann", false, expires, 0⟩
    let header := utf8 "\x7b\"alg\":\"HS256\"\x7d"
    let late := utf8 "\x7b\"user_id\":\"ann\",\"username\":\"Ann\",\"exp\":1000,\"iat\":0\x7d"
    let stray :=
      utf8 "\x7b\"user_id\":\"ann\",\"username\":\"Ann\",\"exp\":4102444800,\"iat\":0,\"x\":\"" ++
        0xFF :: utf8 "\"\x7d"
    (validate "secret" 1060 (sealed "secret" header late) = .ok (ann 1000) ∧
      (ann 1000).expires < 1060) ∧
    (validate "secret" 1060 (sealed "secret" header stray) = .ok (ann 4102444800) ∧
      Text.ofBytes? stray = none) := by
  intro ann header late stray
  have hmethod : IsHeader (.ofBytes header) "HS256" := readMethod?_eq_some.mp (by decide +kernel)
  have hok {payload : List UInt8} {c : Claims}
      (hclaims : Claims.read? (.ofBytes payload) = some c)
      (hallow : Claims.standardClaimsAllow (.ofBytes payload) = true)
      (hnow : 1060 ≤ c.expires + leeway) (huser : c.user ≠ "") :
      validate "secret" 1060 (sealed "secret" header payload) = .ok c :=
    validate_eq_ok.mpr (genuine_sealed hmethod (read?_eq_some.mp hclaims)
      (standardClaimsAllow_iff.mp hallow) hnow huser)
  refine ⟨⟨?_, by decide⟩, ?_, by decide +kernel⟩
  · exact hok (by decide +kernel) (by decide +kernel) (by decide) (by decide)
  · exact hok (by decide +kernel) (by decide +kernel) (by decide) (by decide)

end ChatHub.Token
