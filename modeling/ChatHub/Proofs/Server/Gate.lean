import ChatHub.Proofs.Server.Admission
/-!
The gate of the sockets.  A request for a socket goes through a row of checks, and the first that
fails decides: what is answered, under which name the refusal is counted, and that nothing else of
the server changes.  A session is opened behind the last check and nowhere else.
-/

namespace ChatHub

namespace Metrics

/-- How often something was counted under a label set. -/
def Family.total {κ : Type} [DecidableEq κ] (key : κ) (fam : Family κ Nat) : Nat :=
  (Family.get? key fam).getD 0

theorem Family.total_adjust {κ : Type} [DecidableEq κ] (key counted : κ) (fam : Family κ Nat) :
    Family.total key (Family.adjust (· + 1) 0 counted fam) =
      Family.total key fam + if counted = key then 1 else 0 := by
  induction fam with
  | nil =>
    by_cases heq : counted = key <;> simp [Family.total, Family.adjust, Family.get?, heq]
  | cons child rest ih =>
    obtain ⟨k, n⟩ := child
    by_cases hhere : k = counted
    · subst hhere
      by_cases heq : k = key <;> simp [Family.total, Family.adjust, Family.get?, heq]
    · by_cases hkey : k = key
      · have hother : counted ≠ key := fun heq => hhere (hkey.trans heq.symm)
        simp [Family.total, Family.adjust, Family.get?, hkey, hother, Ne.symm hother]
      · simpa [Family.total, Family.adjust, Family.get?, hhere, hkey] using ih

/-- How often a refusal was counted under a name. -/
def Registry.rejections (m : Registry) (label : String) : Nat := Family.total label m.rejected

end Metrics

namespace Http

/-- A request as it comes over a connection. -/
def Request.arriving (r : Request) : Request := { r with headers := r.headers.map Header.trimmed }

theorem after?_eq_some {start text rest : String} :
    after? start text = some rest ↔ text = start ++ rest := by
  rw [after?]
  constructor
  · intro h
    split at h
    next hprefix =>
      obtain ⟨tail, htail⟩ := List.isPrefixOf_iff_prefix.mp hprefix
      rw [← htail, List.drop_left, Option.some.injEq] at h
      rw [← String.toList_inj, String.toList_append, ← htail, ← h, String.toList_ofList]
    next => cases h
  · rintro rfl
    have hprefix : start.toList.isPrefixOf (start ++ rest).toList = true := by
      rw [String.toList_append]
      exact List.isPrefixOf_iff_prefix.mpr (List.prefix_append _ _)
    rw [if_pos hprefix, String.toList_append, List.drop_left, String.ofList_toList]

theorem originHost?_eq_some {origin host : String} :
    originHost? origin = some host ↔ origin = "http://" ++ host ∨ origin = "https://" ++ host := by
  rw [originHost?, Option.or_eq_some_iff, after?_eq_some, after?_eq_some]
  constructor
  · rintro (h | ⟨-, h⟩)
    · exact .inl h
    · exact .inr h
  · rintro (h | h)
    · exact .inl h
    · refine .inr ⟨?_, h⟩
      -- the two starts differ in their fifth character
      rw [Option.eq_none_iff_forall_ne_some]
      intro rest hrest
      rw [after?_eq_some, h, ← String.toList_inj] at hrest
      simp at hrest

theorem Header.text?_eq_some {field : Header} {text : String} :
    field.text? = some text ↔
      (∀ c ∈ field.value.toList, isReadableChar c = true) ∧ field.value = text := by
  rw [Header.text?]
  split
  next hall => rw [Option.some.injEq, and_iff_right (List.all_eq_true.mp hall)]
  next hall =>
    rw [List.all_eq_true] at hall
    simp only [reduceCtorEq, hall, false_and]

theorem originAllowed_of_text {hs : Headers} {field : Header}
    (hfield : Headers.first? hs "origin" = some field)
    (hreadable : ∀ c ∈ field.value.toList, isReadableChar c = true) :
    originAllowed hs none = true ↔
      ∃ host, Headers.first? hs "host" = some host ∧
        (field.value = "http://" ++ host.value ∨ field.value = "https://" ++ host.value) := by
  have htext : field.text? = some field.value := Header.text?_eq_some.mpr ⟨hreadable, rfl⟩
  simp only [originAllowed, hfield, htext, Headers.text?]
  cases hhost : Headers.first? hs "host" with
  | none => simp
  | some host =>
    simp only [Option.bind_some, Option.some.injEq, exists_eq_left', ← originHost?_eq_some]
    cases hlegible : host.text? with
    | some text =>
      obtain ⟨-, rfl⟩ := Header.text?_eq_some.mp hlegible
      exact beq_iff_eq
    | none =>
      -- a host that is no text is no end of an origin that is one
      refine ⟨fun h => absurd h Bool.false_ne_true, fun h => ?_⟩
      have hpart : ∀ c ∈ host.value.toList, c ∈ field.value.toList := by
        intro c hc
        obtain h | h := originHost?_eq_some.mp h
        all_goals
          rw [h, String.toList_append]
          exact List.mem_append_right _ hc
      rw [Header.text?_eq_some.mpr ⟨fun c hc => hreadable c (hpart c hc), rfl⟩] at hlegible
      cases hlegible

end Http

namespace Server

open Http (Request Headers isReadableChar)

/-! ## Whose site a request comes from -/

/-- A request comes from a site that no connection is taken from. -/
inductive ComesFromElsewhere (config : Config) (hs : Headers) : Prop
  /-- The site is not given as a text. -/
  | illegible (field : Http.Header) (hfield : Headers.first? hs "origin" = some field)
      (h : ¬∀ c ∈ field.value.toList, isReadableChar c = true)
  /-- A site is set, and this is not it. -/
  | unlisted (field : Http.Header) (hfield : Headers.first? hs "origin" = some field)
      (site : String) (hset : config.origin = some site) (hsite : site ≠ "")
      (h : field.value ≠ site)
  /-- No site is set, and this is not the host that the request was sent to. -/
  | foreign (field : Http.Header) (hfield : Headers.first? hs "origin" = some field)
      (hset : ∀ site, config.origin = some site → site = "")
      (h : ∀ host, Headers.first? hs "host" = some host →
        field.value ≠ "http://" ++ host.value ∧ field.value ≠ "https://" ++ host.value)

theorem allowedOrigin_eq_some {config : Config} {site : String} :
    config.allowedOrigin = some site ↔ config.origin = some site ∧ site ≠ "" := by
  simp [Config.allowedOrigin, Option.filter_eq_some_iff]

theorem allowedOrigin_eq_none {config : Config} :
    config.allowedOrigin = none ↔ ∀ site, config.origin = some site → site = "" := by
  simp [Config.allowedOrigin, Option.filter_eq_none_iff]

theorem originAllowed_eq_false {config : Config} {hs : Headers} :
    Http.originAllowed hs config.allowedOrigin = false ↔ ComesFromElsewhere config hs := by
  cases hfield : Headers.first? hs "origin" with
  | none =>
    simp only [Http.originAllowed, hfield, Bool.true_eq_false, false_iff]
    rintro (⟨_, h, _⟩ | ⟨_, h, _⟩ | ⟨_, h, _⟩) <;> exact absurd (hfield.symm.trans h) nofun
  | some field =>
    by_cases hreadable : ∀ c ∈ field.value.toList, isReadableChar c = true
    swap
    · have htext : field.text? = none := by
        rw [Option.eq_none_iff_forall_ne_some]
        exact fun text h => hreadable (Http.Header.text?_eq_some.mp h).1
      simp only [Http.originAllowed, hfield, htext, true_iff]
      exact .illegible field hfield hreadable
    cases hsite : config.allowedOrigin with
    | some site =>
      obtain ⟨hset, hne⟩ := allowedOrigin_eq_some.mp hsite
      simp only [Http.originAllowed, hfield, Http.Header.text?_eq_some.mpr ⟨hreadable, rfl⟩,
        beq_eq_false_iff_ne]
      refine ⟨.unlisted field hfield site hset hne, fun h => ?_⟩
      cases h with
      | illegible other hother h =>
        cases hfield.symm.trans hother
        exact absurd hreadable h
      | unlisted other hother site' hset' _ h =>
        cases hfield.symm.trans hother
        cases hset.symm.trans hset'
        exact h
      | foreign other hother hset' _ => exact absurd (hset' site hset) hne
    | none =>
      have hset := allowedOrigin_eq_none.mp hsite
      rw [← Bool.not_eq_true, Http.originAllowed_of_text hfield hreadable]
      constructor
      · intro h
        refine .foreign field hfield hset fun host hhost => ?_
        exact ⟨fun heq => h ⟨host, hhost, .inl heq⟩, fun heq => h ⟨host, hhost, .inr heq⟩⟩
      · rintro h ⟨host, hhost, heq⟩
        cases h with
        | illegible other hother h =>
          cases hfield.symm.trans hother
          exact h hreadable
        | unlisted other hother site hsite' hne _ => exact hne (hset site hsite')
        | foreign other hother _ h =>
          cases hfield.symm.trans hother
          exact heq.elim (h host hhost).1 (h host hhost).2

/-! ## The row of checks -/

/-- A check of the gate: what stands against a request that fails it, with which status that is
answered, and under which name it is counted. -/
structure Check where
  refusal : Refusal
  status : Nat
  label? : Option String
  fails : Prop

/-- What makes a request a handshake. -/
def handshakeChecks (canUpgrade : Bool) (r : Request) : List Check :=
  [⟨.method, 405, none, r.method ≠ "GET"⟩,
   ⟨.connectionField, 400, none, fieldHas r.headers "connection" "upgrade" = false⟩,
   ⟨.upgradeField, 400, none, fieldIs r.headers "upgrade" "websocket" = false⟩,
   ⟨.keyMissing, 400, none, Headers.first? r.headers "sec-websocket-key" = none⟩,
   ⟨.protocolVersion, 400, none, fieldIs r.headers "sec-websocket-version" "13" = false⟩,
   ⟨.fixed, 426, none, canUpgrade = false⟩]

/-- All checks of the gate in their order. -/
def checks (s : Server) (t : Moment) (canUpgrade : Bool) (r : Request) : List Check :=
  [⟨.token .missingToken, 401, some "unauthorized", Token.extract? r.headers r.target = none⟩,
   ⟨.token .invalidToken, 401, some "unauthorized",
     ∃ token, Token.extract? r.headers r.target = some token ∧
       ∀ claims, Token.validate s.config.secret t.now token ≠ .ok claims⟩,
   ⟨.origin, 403, some "origin", ComesFromElsewhere s.config r.headers⟩,
   ⟨.capacity, 503, some "capacity", s.hub.limits.maxConnections ≤ s.hub.registered.length⟩] ++
    handshakeChecks canUpgrade r

/-- The first check of a row that fails decides; if none does, all is well. -/
def Judged (refused : Check → Prop) (passed : Prop) : List Check → Prop
  | [] => passed
  | c :: cs => (c.fails → refused c) ∧ (¬c.fails → Judged refused passed cs)

theorem Judged.imp {refused refused' : Check → Prop} {passed passed' : Prop} {cs : List Check}
    (h : Judged refused passed cs) (hrefused : ∀ c ∈ cs, refused c → refused' c)
    (hpassed : passed → passed') : Judged refused' passed' cs := by
  induction cs with
  | nil => exact hpassed h
  | cons c cs ih =>
    obtain ⟨hfirst, hothers⟩ := h
    refine ⟨fun hfails => hrefused c List.mem_cons_self (hfirst hfails), fun hholds => ?_⟩
    exact ih (hothers hholds) fun d hd => hrefused d (List.mem_cons_of_mem c hd)

/-- A row of checks and a chain of tests that are made one after the other. -/
theorem Judged.cons_ite {c : Check} {cs : List Check} {test : Bool} {rest : Option Refusal}
    (hfails : c.fails ↔ test = true)
    (hrest : Judged (fun d => rest = some d.refusal) (rest = none) cs) :
    Judged (fun d => (if test then some c.refusal else rest) = some d.refusal)
      ((if test then some c.refusal else rest) = none) (c :: cs) := by
  refine ⟨fun h => if_pos (hfails.mp h), fun h => ?_⟩
  rw [if_neg (hfails.not.mp h)]
  exact hrest

theorem judged_handshakeFault (canUpgrade : Bool) (r : Request) :
    Judged (fun c => handshakeFault? canUpgrade r = some c.refusal)
      (handshakeFault? canUpgrade r = none) (handshakeChecks canUpgrade r) := by
  refine .cons_ite (by simp) <| .cons_ite (by simp) <| .cons_ite (by simp) <|
    .cons_ite (by simp) <| .cons_ite (by simp) <| .cons_ite (by simp) ?_
  rfl

/-- What is told of a refusal is what the row says of the check. -/
theorem refusal_of_mem_checks {s : Server} {t : Moment} {canUpgrade : Bool} {r : Request}
    {c : Check} (hc : c ∈ s.checks t canUpgrade r) :
    c.refusal.response.status = c.status ∧ c.refusal.reason? = c.label? := by
  simp only [checks, handshakeChecks, List.cons_append, List.nil_append, List.mem_cons,
    List.not_mem_nil, or_false] at hc
  obtain rfl | rfl | rfl | rfl | rfl | rfl | rfl | rfl | rfl | rfl := hc
  all_goals exact ⟨rfl, rfl⟩

section

variable (s : Server) (t : Moment) (canUpgrade : Bool) (r : Request)

/-- The token of a request is accepted, with these claims. -/
def Bears (claims : Claims) : Prop :=
  ∃ token, Token.extract? r.headers r.target = some token ∧
    Token.validate s.config.secret t.now token = .ok claims

theorem judged_grant :
    Judged (fun c => s.grant t.now canUpgrade r = .error c.refusal)
      (∃ claims, s.Bears t r claims ∧ s.grant t.now canUpgrade r = .ok claims.user)
      (s.checks t canUpgrade r) := by
  refine ⟨fun hmissing => ?missing, fun hfound => ⟨fun hinvalid => ?invalid, fun hvalid => ?_⟩⟩
  case missing => simp only [grant, Token.authenticate, show Token.extract? _ _ = _ from hmissing]
  case invalid =>
    obtain ⟨token, htoken, hrejected⟩ := hinvalid
    cases hvalidate : Token.validate s.config.secret t.now token with
    | ok claims => exact absurd hvalidate (hrejected claims)
    | error e =>
      have he : e = .invalidToken := by
        rw [Token.validate] at hvalidate
        split at hvalidate
        next => cases hvalidate
        next => exact (Except.error.inj hvalidate).symm
      simp only [grant, Token.authenticate, htoken, hvalidate, he]
  obtain ⟨token, htoken⟩ := Option.ne_none_iff_exists'.mp hfound
  obtain ⟨claims, hclaims⟩ :
      ∃ claims, Token.validate s.config.secret t.now token = .ok claims := by
    by_contra hnone
    exact hvalid ⟨token, htoken, not_exists.mp hnone⟩
  simp only [grant, Token.authenticate, htoken, hclaims]
  refine ⟨fun horigin => ?origin, fun horigin => ⟨fun hfull => ?capacity, fun hroom => ?_⟩⟩
  case origin => rw [originAllowed_eq_false.mpr horigin, Bool.not_false, if_pos rfl]
  all_goals
    rw [Bool.eq_true_of_not_eq_false (originAllowed_eq_false.not.mpr horigin), Bool.not_true,
      if_neg Bool.false_ne_true]
  case capacity => exact if_pos hfull
  rw [if_neg hroom]
  refine (judged_handshakeFault canUpgrade r).imp (fun c _ hfault => ?_) fun hsound => ?_
  · rw [hfault]
  · rw [hsound]
    exact ⟨claims, ⟨token, htoken, hclaims⟩, rfl⟩

/-- What becomes of a request that fails a check before all others. -/
structure TurnedAway (c : Check) : Prop where
  reply : (s.answer t canUpgrade r).2 = .only c.refusal.response
  status : (s.answer t canUpgrade r).2.response.status = c.status
  unchanged : ∃ m, (s.answer t canUpgrade r).1 = { s with metrics := m }
  counted : ∀ label, (s.answer t canUpgrade r).1.metrics.rejections label =
    s.metrics.rejections label + if c.label? = some label then 1 else 0

/-- What becomes of a request that fails none. -/
structure LetIn : Prop where
  reply : ∃ claims, s.Bears t r claims ∧
    (s.answer t canUpgrade r).2 = ⟨.bare 101, some claims.user⟩
  unchanged : ∃ m, (s.answer t canUpgrade r).1 = { s with metrics := m }
  uncounted : (s.answer t canUpgrade r).1.metrics.rejections = s.metrics.rejections

/-- No session is started over a socket. -/
def NotOpened (c : Check) : Prop :=
  ∃ m, s.openSocket t r = ({ s with metrics := m }, .handshake c.refusal.response none)

/-- A session is started for the user whom the token names. -/
def Opened : Prop :=
  ∃ claims hub peer m, s.Bears t r.arriving claims ∧ peer.user = claims.user ∧
    s.hub.connect claims.user = .ok (hub, peer) ∧
    s.openSocket t r =
      ({ s with
         hub, metrics := m, opened := s.opened + 1
         sessions := s.sessions ++ [⟨s.opened, peer⟩] },
       .handshake (.bare 101) (some s.opened))

variable {s t canUpgrade r} (hmethod : r.method = "GET") (hpath : r.target.path = "/ws")

include hmethod hpath

theorem turnedAway_of_grant {c : Check} (hc : c ∈ s.checks t canUpgrade r)
    (hgrant : s.grant t.now canUpgrade r = .error c.refusal) : s.TurnedAway t canUpgrade r c := by
  have ⟨hstatus, hlabel⟩ := refusal_of_mem_checks hc
  have hreply : (s.answer t canUpgrade r).2 = _ := answer_of_upgrade hmethod hpath
  have hrejected : (s.answer t canUpgrade r).1.metrics.rejected = _ :=
    rejected_answer_of_upgrade hmethod hpath
  simp only [hgrant] at hreply hrejected
  refine ⟨hreply, ?_, answer_eq_with_metrics t canUpgrade r s, fun label => ?_⟩
  · rw [hreply]
    exact hstatus
  · rw [Metrics.Registry.rejections, hrejected, hlabel]
    cases c.label? with
    | none => rfl
    | some reason => simp only [Metrics.Family.total_adjust, Option.some.injEq]; rfl

theorem letIn_of_grant {claims : Claims} (hclaims : s.Bears t r claims)
    (hgrant : s.grant t.now canUpgrade r = .ok claims.user) : s.LetIn t canUpgrade r := by
  have hreply : (s.answer t canUpgrade r).2 = _ := answer_of_upgrade hmethod hpath
  have hrejected : (s.answer t canUpgrade r).1.metrics.rejected = _ :=
    rejected_answer_of_upgrade hmethod hpath
  simp only [hgrant] at hreply hrejected
  refine ⟨⟨claims, hclaims, hreply⟩, answer_eq_with_metrics t canUpgrade r s, ?_⟩
  funext label
  rw [Metrics.Registry.rejections, hrejected]
  rfl

theorem judged_answer :
    Judged (s.TurnedAway t canUpgrade r) (s.LetIn t canUpgrade r) (s.checks t canUpgrade r) :=
  (judged_grant s t canUpgrade r).imp
    (fun _ hc hgrant => turnedAway_of_grant hmethod hpath hc hgrant)
    fun ⟨_, hclaims, hgrant⟩ => letIn_of_grant hmethod hpath hclaims hgrant

omit hmethod hpath in
theorem room_of_grant {user : UserId} (hgrant : s.grant t.now canUpgrade r = .ok user) :
    s.hub.registered.length < s.hub.limits.maxConnections := by
  rw [grant] at hgrant
  split at hgrant
  next => cases hgrant
  next =>
    split at hgrant
    next => cases hgrant
    next =>
      split at hgrant
      next => cases hgrant
      next hroom => exact Nat.lt_of_not_le hroom

omit hmethod hpath in
theorem user_of_connect {user : UserId} {h h' : Hub} {peer : Peer}
    (hconnect : h.connect user = .ok (h', peer)) : peer.user = user := by
  rw [Hub.connect] at hconnect
  split at hconnect
  next => cases hconnect
  next =>
    cases hconnect
    rfl

theorem judged_openSocket :
    Judged (s.NotOpened t r) (s.Opened t r) (s.checks t true r.arriving) := by
  have hanswer : Judged (s.TurnedAway t true r.arriving)
      (∃ claims, s.Bears t r.arriving claims ∧ s.grant t.now true r.arriving = .ok claims.user)
      (s.checks t true r.arriving) :=
    (judged_grant s t true r.arriving).imp
      (fun _ hc hgrant => turnedAway_of_grant (r := r.arriving) hmethod hpath hc hgrant) id
  refine hanswer.imp (fun c _ haway => ?_) fun ⟨claims, hclaims, hgrant⟩ => ?_
  · obtain ⟨m, hm⟩ := haway.unchanged
    refine ⟨m, ?_⟩
    have hpair : s.answer t true r.arriving = ({ s with metrics := m }, .only c.refusal.response) :=
      Prod.ext hm haway.reply
    change openSocket t r s = _
    rw [openSocket, show s.answer t true { r with headers := _ } = _ from hpair]
    rfl
  · obtain ⟨m, hm⟩ := answer_eq_with_metrics t true r.arriving s
    have hreply : (s.answer t true r.arriving).2 = ⟨.bare 101, some claims.user⟩ := by
      rw [answer_of_upgrade (r := r.arriving) hmethod hpath, hgrant]
    obtain ⟨hub, peer, hconnect⟩ := (connect_ok_iff s.hub claims.user).mpr (room_of_grant hgrant)
    refine ⟨claims, hub, peer, m.recordSession, hclaims, user_of_connect hconnect, hconnect, ?_⟩
    have hpair : s.answer t true r.arriving =
        ({ s with metrics := m }, ⟨.bare 101, some claims.user⟩) := Prod.ext hm hreply
    rw [openSocket, show s.answer t true { r with headers := _ } = _ from hpair]
    simp only [startSession, hconnect]

/-- A request for a socket is decided by the first check that it fails.  That gives it its answer,
it is counted under one name at most, and the hub and the sessions stay as they were.  Only one that
fails none is accepted, for the user of its token; over a connection that can be upgraded that is
the start of a session. -/
theorem first_failing_check_decides :
    Judged (s.TurnedAway t canUpgrade r) (s.LetIn t canUpgrade r) (s.checks t canUpgrade r) ∧
      Judged (s.NotOpened t r) (s.Opened t r) (s.checks t true r.arriving) :=
  ⟨judged_answer hmethod hpath, judged_openSocket hmethod hpath⟩

end

/-- Somebody who shows no token is told so, whatever else is wrong with the request. -/
theorem stranger_is_turned_away :
    let s := new Config.default
    let r : Request := ⟨"GET", ⟨"/ws", none⟩, [⟨"Origin", "http://elsewhere"⟩]⟩
    let t : Moment := ⟨0, 0, 0⟩
    (s.answer t true r).2.response.status = 401 ∧
      (s.answer t true r).1.metrics.rejections "unauthorized" = 1 ∧
      (s.answer t true r).1.metrics.rejections "origin" = 0 := by
  intro s r t
  have hmissing : Token.extract? r.headers r.target = none := by decide
  have haway : s.TurnedAway t true r ⟨.token .missingToken, 401, some "unauthorized", _⟩ :=
    (first_failing_check_decides rfl rfl).1.1 hmissing
  exact ⟨haway.status, haway.counted "unauthorized", haway.counted "origin"⟩

end Server

end ChatHub
