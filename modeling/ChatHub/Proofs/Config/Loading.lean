import ChatHub.Config.Load
import ChatHub.Proofs.Config.Wording
/-!
How a setting comes from the variables of the process into the configuration.  Of all that is given
for it the last counts, and what is given for the others leaves it alone.
-/

namespace ChatHub

namespace Settings

variable {settings a b : Settings} {source : Source} {name m : String} {value value' : Setting}

theorem get?_put (settings : Settings) (name : String) (value : Setting) (m : String) :
    (settings.put name value).get? m =
      if m = (target name).1 then some (if (target name).2 then value else .compound)
      else settings.get? m := by
  simp only [put, get?, List.lookup_cons]
  split
  next heq => rw [if_pos (beq_iff_eq.mp heq)]
  next heq => rw [if_neg (beq_eq_false_iff_ne.mp heq)]

/-- What is given for other settings leaves one alone. -/
theorem get?_putAll_of_ne (hother : ∀ x ∈ source, (target x.1).1 ≠ m) :
    (settings.putAll source).get? m = settings.get? m := by
  induction source generalizing settings with
  | nil => rfl
  | cons x source ih =>
    obtain ⟨hx, hsource⟩ := List.forall_mem_cons.mp hother
    have hput : (settings.put x.1 x.2).get? m = settings.get? m := by
      rw [get?_put, if_neg hx.symm]
    exact (ih hsource).trans hput

/-- Settings that are the same, except that one may have either of two values. -/
def Agree (name : String) (value value' : Setting) (a b : Settings) : Prop :=
  ∀ m, a.get? m = b.get? m ∨ m = name ∧ a.get? m = some value ∧ b.get? m = some value'

theorem Agree.put (h : Agree name value value' a b) (x : String × Setting) :
    Agree name value value' (a.put x.1 x.2) (b.put x.1 x.2) := by
  intro m
  rw [get?_put, get?_put]
  by_cases hm : m = (target x.1).1
  · rw [if_pos hm, if_pos hm]
    exact Or.inl rfl
  · rw [if_neg hm, if_neg hm]
    exact h m

theorem Agree.putAll (h : Agree name value value' a b) (source : Source) :
    Agree name value value' (a.putAll source) (b.putAll source) := by
  induction source generalizing a b with
  | nil => exact h
  | cons x source ih => exact ih (h.put x)

theorem agree_put (settings : Settings) (hwhole : target name = (name, true)) :
    Agree name value value' (settings.put name value) (settings.put name value') := by
  intro m
  rw [get?_put, get?_put, hwhole]
  by_cases hm : m = name
  · rw [if_pos hm, if_pos hm]
    exact Or.inr ⟨hm, rfl, rfl⟩
  · rw [if_neg hm, if_neg hm]
    exact Or.inl rfl

section Variables

variable {before after : List (String × String)} {variableName v w : String}

theorem ofVariables_append (hname : settingName? variableName = some name) :
    ofVariables (before ++ (variableName, v) :: after) =
      ofVariables before ++ (name, Setting.ofVariable v) :: ofVariables after := by
  rw [ofVariables, List.filterMap_append, List.filterMap_cons_some]
  · rfl
  · simp only [hname]
    rfl

/-- The last that is given for a setting counts. -/
theorem get?_putAll_ofVariables (hname : settingName? variableName = some name)
    (hwhole : target name = (name, true))
    (hlast : ∀ x ∈ ofVariables after, (target x.1).1 ≠ name) :
    (settings.putAll (ofVariables (before ++ (variableName, v) :: after))).get? name =
      some (Setting.ofVariable v) := by
  rw [ofVariables_append hname, putAll, List.foldl_append, List.foldl_cons]
  refine (get?_putAll_of_ne hlast).trans ?_
  rw [get?_put, hwhole, if_pos rfl, if_pos rfl]

theorem agree_putAll_ofVariables (hname : settingName? variableName = some name)
    (hwhole : target name = (name, true)) :
    Agree name (Setting.ofVariable v) (Setting.ofVariable w)
      (settings.putAll (ofVariables (before ++ (variableName, v) :: after)))
      (settings.putAll (ofVariables (before ++ (variableName, w) :: after))) := by
  rw [ofVariables_append hname, ofVariables_append hname, putAll, putAll, List.foldl_append,
    List.foldl_append]
  exact (agree_put _ hwhole).putAll (ofVariables after)

end Variables

end Settings

namespace Config

open Settings (Agree target)

/-- The settings that are texts. -/
inductive TextField
  | secret
  | origin
  | logLevel
  | logFormat
deriving DecidableEq, Repr

def TextField.name : TextField → String
  | secret => "jwt_secret"
  | origin => "allowed_origin"
  | logLevel => "log_level"
  | logFormat => "log_format"

/-- What a configuration has for one, if it has anything. -/
def TextField.value (c : Config) : TextField → Option String
  | secret => some c.secret
  | origin => c.origin
  | logLevel => some c.logLevel
  | logFormat => some c.logFormat

theorem TextField.target_name (field : TextField) : target field.name = (field.name, true) := by
  cases field <;> decide +kernel

section Load

variable {file : Option NamedFile} {environment : List (String × String)} {settings a b : Settings}
  {c : Config} {field : TextField} {s s' : Setting} {text : String}

theorem optionalText?_of_text? (htext : s.text? = some text) :
    s.optionalText? = some (some text) := by
  cases s with
  | null => cases htext
  | bool | integer | number | text | compound =>
    rw [Setting.optionalText?, htext]
    · rfl
    · nofun

theorem valueOr_of_get? {α : Type} {name : String} {read : Setting → Option α} {default : α}
    (hs : settings.get? name = some s) : valueOr settings name read default = read s := by
  rw [valueOr, hs]

/-- A text that is set is what the configuration has. -/
theorem value_of_ofSettings? (hc : ofSettings? settings = some c)
    (hs : settings.get? field.name = some s) (htext : s.text? = some text) :
    field.value c = some text := by
  simp only [ofSettings?, Option.bind_eq_bind, Option.bind_eq_some_iff] at hc
  obtain ⟨_, _, secret, hsecret, origin, horigin, logLevel, hlevel, logFormat, hformat, _, _, _, _,
    _, _, hc⟩ := hc
  cases hc
  cases field with
  | secret => exact hsecret.symm.trans ((valueOr_of_get? hs).trans htext)
  | origin =>
    exact Option.some.inj (horigin.symm.trans
      ((valueOr_of_get? hs).trans (optionalText?_of_text? htext)))
  | logLevel => exact hlevel.symm.trans ((valueOr_of_get? hs).trans htext)
  | logFormat => exact hformat.symm.trans ((valueOr_of_get? hs).trans htext)

theorem valueOr_congr {α : Type} {name : String} {read : Setting → Option α} {default : α}
    (h : Agree field.name s s' a b) (hread : name = field.name → read s = read s') :
    valueOr a name read default = valueOr b name read default := by
  rcases h name with heq | ⟨hname, ha, hb⟩
  · rw [valueOr, valueOr, heq]
  · rw [valueOr_of_get? ha, valueOr_of_get? hb, hread hname]

/-- Two settings that come to the same text make no difference where a text is needed. -/
theorem ofSettings?_congr (h : Agree field.name s s' a b) (hs : s.text? = some text)
    (hs' : s'.text? = some text) : ofSettings? a = ofSettings? b := by
  have hsame : s.text? = s'.text? := hs.trans hs'.symm
  have hoptional : s.optionalText? = s'.optionalText? :=
    (optionalText?_of_text? hs).trans (optionalText?_of_text? hs').symm
  have htext {name : String} {default : String} :
      valueOr a name Setting.text? default = valueOr b name Setting.text? default :=
    valueOr_congr h fun _ => hsame
  have hnumber {name : String} {default : Nat} (hname : ∀ f : TextField, name ≠ f.name) :
      valueOr a name Setting.word? default = valueOr b name Setting.word? default :=
    valueOr_congr h fun heq => absurd heq (hname field)
  have hbind : valueOr a "bind_addr" (fun s => s.text?.bind Net.SocketAddress.ofText?)
      default.bindAddress = valueOr b "bind_addr"
        (fun s => s.text?.bind Net.SocketAddress.ofText?) default.bindAddress :=
    valueOr_congr h fun _ => congrArg (·.bind Net.SocketAddress.ofText?) hsame
  have horigin : valueOr a "allowed_origin" Setting.optionalText? default.origin =
      valueOr b "allowed_origin" Setting.optionalText? default.origin :=
    valueOr_congr h fun _ => hoptional
  have hnames (f : TextField) :
      f.name ∉ ["send_queue_capacity", "max_connections", "max_message_size"] := by
    cases f <;> decide
  rw [ofSettings?, ofSettings?, hbind, horigin, htext, htext, htext,
    hnumber fun f heq => hnames f (heq ▸ by decide),
    hnumber fun f heq => hnames f (heq ▸ by decide),
    hnumber fun f heq => hnames f (heq ▸ by decide)]

/-- The variables are put over what a file has given. -/
theorem exists_settings?_eq (file : Option NamedFile) :
    ∃ base : Option Settings, ∀ environment,
      settings? file environment = base.map fun settings =>
        settings.putAll (Settings.ofVariables environment) := by
  cases file with
  | none => exact ⟨some [], fun environment => rfl⟩
  | some f =>
    refine ⟨f.source?.map (Settings.putAll []), fun environment => ?_⟩
    rw [settings?, Option.map_map]
    rfl

theorem ofSettings?_of_load (hload : load file environment = .ok c) :
    (settings? file environment).bind ofSettings? = some c := by
  rw [load] at hload
  split at hload
  next => cases hload
  next c' hc =>
    split at hload
    next =>
      cases hload
      exact hc
    next => cases hload

/-- Texts that come to the same load as the same configuration. -/
theorem load_congr_shown {before after : List (String × String)} {variableName v w : String}
    (hname : Settings.settingName? variableName = some field.name)
    (hshown : Setting.shown w = Setting.shown v) :
    load file (before ++ (variableName, w) :: after) =
      load file (before ++ (variableName, v) :: after) := by
  obtain ⟨base, hbase⟩ := exists_settings?_eq file
  have hsame : (settings? file (before ++ (variableName, w) :: after)).bind ofSettings? =
      (settings? file (before ++ (variableName, v) :: after)).bind ofSettings? := by
    rw [hbase, hbase, Option.bind_map, Option.bind_map]
    apply Option.bind_congr
    intro settings _
    exact ofSettings?_congr (Settings.agree_putAll_ofVariables hname field.target_name)
      (Setting.text?_ofVariable w) (hshown ▸ Setting.text?_ofVariable v)
  rw [load, load, hsame]

end Load

/-- A text that a variable gives for a setting, and that nothing else is given for after it, is in
the configuration as it is shown.  So the setting is the text itself just if the text is one that is
given back as it is; and no other text gives the same just if it is a wording. -/
theorem text_setting_loaded {file : Option NamedFile} {before after : List (String × String)}
    {variableName v : String} {field : TextField} {c : Config}
    (hname : Settings.settingName? variableName = some field.name)
    (hlast : ∀ x ∈ Settings.ofVariables after, (target x.1).1 ≠ field.name)
    (hload : load file (before ++ (variableName, v) :: after) = .ok c) :
    field.value c = some (Setting.shown v) ∧
      (field.value c = some v ↔ Setting.Verbatim v) ∧
      ((∀ w c', load file (before ++ (variableName, w) :: after) = .ok c' →
          field.value c' = field.value c → w = v) ↔ Setting.IsWording v) := by
  obtain ⟨base, hbase⟩ := exists_settings?_eq file
  have hvalue {w : String} {c' : Config}
      (hc' : load file (before ++ (variableName, w) :: after) = .ok c') :
      field.value c' = some (Setting.shown w) := by
    have hsettings := ofSettings?_of_load hc'
    rw [hbase, Option.bind_map, Option.bind_eq_some_iff] at hsettings
    obtain ⟨settings, _, hsettings⟩ := hsettings
    exact value_of_ofSettings? hsettings
      (Settings.get?_putAll_ofVariables hname field.target_name hlast) (Setting.text?_ofVariable w)
  refine ⟨hvalue hload, ?_, ?_⟩
  · rw [hvalue hload, Option.some.injEq, Setting.shown_eq_self_iff]
  · rw [← Setting.forall_shown_eq_iff]
    constructor
    · intro halone w hw
      exact halone w c ((load_congr_shown hname hw).trans hload) rfl
    · intro halone w c' hc' hsame
      rw [hvalue hload, hvalue hc', Option.some.injEq] at hsame
      exact halone w hsame

/-- A secret that begins like a number but is none is kept. -/
theorem secret_kept :
    ∃ c, load none [("CHIRM_LOG_LEVEL", "debug"), ("CHIRM_JWT_SECRET", "12e4b7")] = .ok c ∧
      c.secret = "12e4b7" ∧ Setting.Verbatim "12e4b7" := by
  have hloads : (load none [("CHIRM_LOG_LEVEL", "debug"),
      ("CHIRM_JWT_SECRET", "12e4b7")]).toOption.isSome = true := by decide +kernel
  have hname : Settings.settingName? "CHIRM_JWT_SECRET" = some TextField.secret.name := by
    decide +kernel
  cases hload : load none [("CHIRM_LOG_LEVEL", "debug"), ("CHIRM_JWT_SECRET", "12e4b7")] with
  | error e =>
    rw [hload] at hloads
    cases hloads
  | ok c =>
    obtain ⟨hvalue, hverbatim, _⟩ := @text_setting_loaded none [("CHIRM_LOG_LEVEL", "debug")] []
      "CHIRM_JWT_SECRET" "12e4b7" .secret c hname nofun hload
    have hshown : Setting.shown "12e4b7" = "12e4b7" := by decide +kernel
    rw [hshown] at hvalue
    exact ⟨c, rfl, Option.some.inj hvalue, hverbatim.mp hvalue⟩

/-- Zeros in front of a secret are lost, so that it is the same as another one. -/
theorem zeros_of_secret_lost :
    let secretOf (v : String) := (load none [("CHIRM_JWT_SECRET", v)]).toOption.map Config.secret
    secretOf "007" = some "7" ∧ secretOf "7" = some "7" := by
  decide +kernel

end Config

end ChatHub
