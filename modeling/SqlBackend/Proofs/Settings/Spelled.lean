import SqlBackend.Proofs.Settings.Versions
import SqlBackend.Proofs.Text.Lowercase
import SqlBackend.Settings.Spanner

/-! # Settings as they are spelled

A setting may be spelled in several ways: its words in any case, its numbers as a version
says them, and always with blanks around it. Settings are read off exactly their spellings,
and where one of them has a text that spells nothing, the first such setting is reported with
that text as it was given.
-/

namespace SqlBackend

variable {α ε : Type}

/-- The text is spelled as it should be, but for blanks around it. -/
def Surrounded (spelled : String → Prop) (raw : String) : Prop :=
  ∃ inner : String, Text.Padded inner.toList raw.toList ∧ spelled inner

/-- A reader gives a value exactly for the spellings of the value. -/
def ReadsSpelled (read : String → Except ε α) (spelled : α → String → Prop) : Prop :=
  ∀ raw value, read (Text.trim raw) = .ok value ↔ Surrounded (spelled value) raw

namespace Text

/-- A word in lower case that has no blanks in it, whatever the case of its letters. -/
def isKeyword (word : String) : Bool :=
  word.toList.all fun w => !w.isUpper && !isBlank w && !isBlank w.toUpper

theorem isKeyword_iff {word : String} :
    isKeyword word = true ↔ ∀ w ∈ word.toList,
      w.isUpper = false ∧ isBlank w = false ∧ isBlank w.toUpper = false := by
  simp [isKeyword, and_assoc]

theorem InAnyCase.not_isBlank {word text : String} (h : InAnyCase word text)
    (hword : isKeyword word = true) : ∀ c ∈ text.toList, isBlank c = false := by
  have hkeyword := isKeyword_iff.mp hword
  unfold InAnyCase at h
  generalize word.toList = letters, text.toList = chars at h hkeyword
  induction h with
  | nil => nofun
  | cons hc _ ih =>
      obtain ⟨⟨_, hw, hcapital⟩, hrest⟩ := List.forall_mem_cons.mp hkeyword
      refine List.forall_mem_cons.mpr ⟨?_, ih hrest⟩
      rcases hc with rfl | rfl
      · exact hw
      · exact hcapital

/-- A keyword is found in a text exactly if the text has it in some case, with perhaps blanks
around it. -/
theorem lower_trim_eq_iff {word raw : String} (hword : isKeyword word = true) :
    lower (trim raw) = word ↔ Surrounded (InAnyCase word) raw := by
  rw [lower_eq_iff fun w hw => (isKeyword_iff.mp hword w hw).1]
  constructor
  · intro h
    exact ⟨trim raw, padded_trim raw, h⟩
  · rintro ⟨inner, hpadded, hinner⟩
    have htrim : (trim raw).toList = inner.toList :=
      (toList_trim raw).trans (hpadded.trimChars_eq_self (hinner.not_isBlank hword))
    rwa [String.toList_inj.mp htrim]

theorem trim_trim (raw : String) : trim (trim raw) = trim raw := by
  rw [← String.toList_inj, toList_trim, toList_trim]
  exact ((padded_trimChars raw.toList).trimChars_eq).symm

end Text

/-- The text is the word for a truth value. -/
def BooleanSpelled (value : Bool) (text : String) : Prop :=
  Text.InAnyCase (if value then "true" else "false") text

/-- The text is the name of the policy. -/
def LikePolicy.Spelled (p : LikePolicy) (text : String) : Prop := Text.InAnyCase p.name text

/-- The text says the numbers of the version. -/
def Version.Spelled (v : Version) (text : String) : Prop :=
  ∃ numbers, Says text numbers ∧ v = ofNumbers numbers

theorem reads_boolean : ReadsSpelled Configuration.readBoolean BooleanSpelled := by
  intro raw value
  have hkeyword : Text.isKeyword (if value then "true" else "false") = true := by
    cases value <;> decide
  change _ ↔ Surrounded (Text.InAnyCase (if value then "true" else "false")) raw
  rw [← Text.lower_trim_eq_iff hkeyword, Configuration.readBoolean]
  cases value with
  | true => split_ifs <;> simp_all
  | false => split_ifs <;> simp_all

theorem LikePolicy.ofName?_eq_some_iff {name : String} {p : LikePolicy} :
    ofName? name = some p ↔ name = p.name := by
  constructor
  · intro h
    simpa [eq_comm] using List.find?_some h
  · rintro rfl
    cases p <;> rfl

theorem reads_likePolicy : ReadsSpelled LikePolicy.parse LikePolicy.Spelled := by
  intro raw value
  have hkeyword : Text.isKeyword value.name = true := by cases value <;> decide
  unfold LikePolicy.Spelled
  rw [← Text.lower_trim_eq_iff hkeyword, ← LikePolicy.ofName?_eq_some_iff, LikePolicy.parse,
    Text.trim_trim]
  cases LikePolicy.ofName? (Text.lower (Text.trim raw)) <;> simp

theorem reads_version : ReadsSpelled Version.parse Version.Spelled := by
  intro raw value
  rw [Version.parse_eq_ok_iff]
  have htrim := Text.padded_trim raw
  constructor
  · intro h
    exact ⟨Text.trim raw, htrim, h⟩
  · rintro ⟨inner, hpadded, numbers, hsaid, rfl⟩
    refine ⟨numbers, ?_, rfl⟩
    rwa [← Version.says_iff_of_padded htrim, Version.says_iff_of_padded hpadded]

namespace Configuration

variable {c : Configuration} {name : String} {read : String → Except ε α}
  {spelled : α → String → Prop}

/-- The text that a setting has is spelled as it should be, with perhaps blanks around it. A
setting that has none is as `absent` says. -/
def Holds (c : Configuration) (name : String) (spelled : String → Prop) (absent : Prop) : Prop :=
  (c.lookup name).elim absent (Surrounded spelled)

/-- The text that a setting has is not spelled as it should be. -/
def Malformed (c : Configuration) (name : String) (spelled : String → Prop) (raw : String) :
    Prop :=
  c.lookup name = some raw ∧ ¬Surrounded spelled raw

theorem Holds.of_lookup {spelled : String → Prop} {absent : Prop} (raw : String)
    (hlookup : c.lookup name = some raw) (hraw : Surrounded spelled raw) :
    c.Holds name spelled absent := by
  rwa [Holds, hlookup, Option.elim_some]

theorem Holds.of_absent {spelled : String → Prop} {absent : Prop}
    (hlookup : c.lookup name = none) (habsent : absent) : c.Holds name spelled absent := by
  rwa [Holds, hlookup, Option.elim_none]

/-- A setting that is spelled as it should be is not malformed. -/
theorem Holds.not_malformed {spelled any : String → Prop} {absent : Prop} {raw : String}
    (h : c.Holds name spelled absent) (hany : ∀ text, spelled text → any text) :
    ¬c.Malformed name any raw := by
  rintro ⟨hlookup, hnone⟩
  rw [Holds, hlookup, Option.elim_some] at h
  obtain ⟨inner, hpadded, hinner⟩ := h
  exact hnone ⟨inner, hpadded, hany inner hinner⟩

theorem read?_eq_ok_iff (hread : ReadsSpelled read spelled) {o : Option α} :
    c.read? read name = .ok o ↔
      c.Holds name (fun text => ∃ value, o = some value ∧ spelled value text) (o = none) := by
  unfold read? Holds
  cases c.lookup name with
  | none => simp [eq_comm]
  | some raw =>
    have hspelled : Surrounded (fun text => ∃ value, o = some value ∧ spelled value text) raw ↔
        ∃ value, o = some value ∧ read (Text.trim raw) = .ok value := by
      simp only [hread raw, Surrounded]
      constructor
      · rintro ⟨inner, hpadded, value, ho, hinner⟩
        exact ⟨value, ho, inner, hpadded, hinner⟩
      · rintro ⟨value, ho, inner, hpadded, hinner⟩
        exact ⟨inner, hpadded, value, ho, hinner⟩
    rw [Option.elim_some, hspelled]
    dsimp only
    cases read (Text.trim raw) with
    | error fault => simp
    | ok value => simp [eq_comm]

theorem read?_eq_error_iff (hread : ReadsSpelled read spelled) {e : Error} :
    c.read? read name = .error e ↔
      ∃ raw, c.Malformed name (fun text => ∃ value, spelled value text) raw ∧
        e = .invalidSetting name raw := by
  unfold read? Malformed
  cases c.lookup name with
  | none => simp
  | some raw =>
    dsimp only
    cases hresult : read (Text.trim raw) with
    | error fault =>
      have hnone : ¬Surrounded (fun text => ∃ value, spelled value text) raw := by
        rintro ⟨inner, hpadded, value, hvalue⟩
        cases hresult.symm.trans ((hread raw value).mpr ⟨inner, hpadded, hvalue⟩)
      simp [hnone, eq_comm]
    | ok value =>
      obtain ⟨inner, hpadded, hvalue⟩ := (hread raw value).mp hresult
      refine iff_of_false nofun ?_
      rintro ⟨other, ⟨hraw, hnone⟩, _⟩
      cases hraw
      exact hnone ⟨inner, hpadded, value, hvalue⟩

/-- A setting that is read with a default is spelled, or absent if the default is its value. -/
theorem exists_read?_getD_iff (hread : ReadsSpelled read spelled) {default value : α} :
    (∃ o, c.read? read name = .ok o ∧ o.getD default = value) ↔
      c.Holds name (spelled value) (value = default) := by
  simp only [read?_eq_ok_iff hread, Holds]
  cases c.lookup name with
  | none => simp [eq_comm]
  | some raw => simp [Surrounded]

end Configuration

/-- The settings of the Spanner dialect. -/
inductive Setting where
  | timestamptz
  | likePolicy
  | version

namespace Setting

def name : Setting → String
  | timestamptz => SpannerSettings.timestamptzName
  | likePolicy => SpannerSettings.likePolicyName
  | version => SpannerSettings.versionName

/-- The text spells some value of the setting. -/
def Spelled : Setting → String → Prop
  | timestamptz, text => ∃ value, BooleanSpelled value text
  | likePolicy, text => ∃ p : LikePolicy, p.Spelled text
  | version, text => ∃ v : Version, v.Spelled text

/-- The settings that come before one. -/
def before : Setting → List Setting
  | timestamptz => []
  | likePolicy => [timestamptz]
  | version => [timestamptz, likePolicy]

/-- The text that the setting has in the configuration spells none of its values. -/
def Malformed (t : Setting) (c : Configuration) (raw : String) : Prop :=
  c.Malformed t.name t.Spelled raw

/-- The step fails exactly where the setting is malformed, and reports it with its text. -/
def ReportedBy (t : Setting) (c : Configuration) (step : Except Error α) : Prop :=
  ∀ e, step = .error e ↔ ∃ raw, t.Malformed c raw ∧ e = .invalidSetting t.name raw

theorem ReportedBy.exists_eq_ok_iff {t : Setting} {c : Configuration} {step : Except Error α}
    (h : t.ReportedBy c step) : (∃ value, step = .ok value) ↔ ∀ raw, ¬t.Malformed c raw := by
  rw [SqlBackend.exists_eq_ok_iff]
  constructor
  · intro hok raw hraw
    exact hok _ ((h _).mpr ⟨raw, hraw, rfl⟩)
  · intro hnone e he
    obtain ⟨raw, hraw, _⟩ := (h e).mp he
    exact hnone raw hraw

end Setting

namespace SpannerSettings

/-- The configuration spells the settings. One that is absent has its default, so where the
version is absent there is none. -/
structure SpelledIn (s : SpannerSettings) (c : Configuration) : Prop where
  timestamptz : c.Holds timestamptzName (BooleanSpelled s.timestamptzForTime)
    (s.timestamptzForTime = false)
  likePolicy : c.Holds likePolicyName s.likePolicy.Spelled (s.likePolicy = .preset)
  version : c.Holds versionName (fun text => ∃ v, s.version = some v ∧ v.Spelled text)
    (s.version = none)

variable {c : Configuration} {s : SpannerSettings} {e : Error}

theorem SpelledIn.not_malformed (h : s.SpelledIn c) (t : Setting) (raw : String) :
    ¬t.Malformed c raw := by
  cases t with
  | timestamptz => exact h.timestamptz.not_malformed fun _ hspelled => ⟨_, hspelled⟩
  | likePolicy => exact h.likePolicy.not_malformed fun _ hspelled => ⟨_, hspelled⟩
  | version => exact h.version.not_malformed fun _ ⟨v, _, hspelled⟩ => ⟨v, hspelled⟩

theorem timestamptz_reportedBy :
    Setting.timestamptz.ReportedBy c (c.boolean timestamptzName false) := by
  intro e
  rw [Configuration.boolean, map_eq_error_iff]
  exact Configuration.read?_eq_error_iff reads_boolean

theorem likePolicy_reportedBy :
    Setting.likePolicy.ReportedBy c (c.likePolicy? likePolicyName) :=
  fun _ => Configuration.read?_eq_error_iff reads_likePolicy

theorem version_reportedBy : Setting.version.ReportedBy c (c.version? versionName) :=
  fun _ => Configuration.read?_eq_error_iff reads_version

theorem boolean_eq_ok_iff {value : Bool} :
    c.boolean timestamptzName false = .ok value ↔
      c.Holds timestamptzName (BooleanSpelled value) (value = false) := by
  rw [Configuration.boolean, map_eq_ok_iff]
  exact Configuration.exists_read?_getD_iff reads_boolean

/-- The settings that are read are those that are spelled. -/
theorem ofConfiguration_eq_ok_iff : ofConfiguration c = .ok s ↔ s.SpelledIn c := by
  have hpolicy : (∃ o, c.likePolicy? likePolicyName = .ok o ∧ o.getD .preset = s.likePolicy) ↔
      c.Holds likePolicyName s.likePolicy.Spelled (s.likePolicy = .preset) :=
    Configuration.exists_read?_getD_iff reads_likePolicy
  have hversion : c.version? versionName = .ok s.version ↔
      c.Holds versionName (fun text => ∃ v, s.version = some v ∧ v.Spelled text)
        (s.version = none) := Configuration.read?_eq_ok_iff reads_version
  simp only [ofConfiguration, bind_eq_ok_iff]
  constructor
  · rintro ⟨timestamptz, hread, policy, hpolicyRead, version, hversionRead, hs⟩
    cases hs
    exact ⟨boolean_eq_ok_iff.mp hread, hpolicy.mp ⟨policy, hpolicyRead, rfl⟩,
      hversion.mp hversionRead⟩
  · rintro ⟨htimestamptz, hlikePolicy, hversionHolds⟩
    obtain ⟨policy, hread, hpolicyValue⟩ := hpolicy.mpr hlikePolicy
    refine ⟨_, boolean_eq_ok_iff.mpr htimestamptz, policy, hread, _, hversion.mpr hversionHolds, ?_⟩
    rw [hpolicyValue]
    rfl

/-- The first setting that is malformed is reported. -/
theorem ofConfiguration_eq_error_iff :
    ofConfiguration c = .error e ↔ ∃ t raw, Setting.Malformed t c raw ∧
      (∀ u ∈ t.before, ∀ other, ¬u.Malformed c other) ∧ e = .invalidSetting t.name raw := by
  have hlast : ∀ (timestamptz : Bool) (policy : Option LikePolicy) (version : Option Version),
      (pure ⟨timestamptz, policy.getD .preset, version⟩ : Except Error SpannerSettings) ≠
        .error e := nofun
  simp only [ofConfiguration, bind_eq_error_iff, hlast, and_false, exists_false, or_false,
    exists_and_right, timestamptz_reportedBy.exists_eq_ok_iff,
    likePolicy_reportedBy.exists_eq_ok_iff, timestamptz_reportedBy e, likePolicy_reportedBy e,
    version_reportedBy e]
  constructor
  · rintro (⟨raw, h, he⟩ | ⟨hfirst, ⟨raw, h, he⟩ | ⟨hsecond, raw, h, he⟩⟩)
    · exact ⟨.timestamptz, raw, h, nofun, he⟩
    · exact ⟨.likePolicy, raw, h, by simpa [Setting.before] using hfirst, he⟩
    · exact ⟨.version, raw, h, by simpa [Setting.before] using ⟨hfirst, hsecond⟩, he⟩
  · rintro ⟨t, raw, h, hbefore, he⟩
    cases t with
    | timestamptz => exact .inl ⟨raw, h, he⟩
    | likePolicy =>
        obtain ⟨hfirst, _⟩ := List.forall_mem_cons.mp hbefore
        exact .inr ⟨hfirst, .inl ⟨raw, h, he⟩⟩
    | version =>
        obtain ⟨hfirst, hrest⟩ := List.forall_mem_cons.mp hbefore
        obtain ⟨hsecond, _⟩ := List.forall_mem_cons.mp hrest
        exact .inr ⟨hfirst, .inr ⟨hsecond, raw, h, he⟩⟩

/-- Settings are read off every configuration that spells them and off no other, whatever else
it has. Where a setting has a text that spells nothing, reading fails, and only there; of
several such settings the first is reported, with its text as it was given. -/
theorem settings_read_as_spelled (c : Configuration) :
    (∀ s : SpannerSettings, ofConfiguration c = .ok s ↔ s.SpelledIn c) ∧
      ((∃ e, ofConfiguration c = .error e) ↔ ∃ t raw, Setting.Malformed t c raw) ∧
      ∀ e, ofConfiguration c = .error e ↔ ∃ t raw, Setting.Malformed t c raw ∧
        (∀ u ∈ t.before, ∀ other, ¬u.Malformed c other) ∧ e = .invalidSetting t.name raw := by
  refine ⟨fun s => ofConfiguration_eq_ok_iff, ?_, fun e => ofConfiguration_eq_error_iff⟩
  constructor
  · rintro ⟨e, he⟩
    obtain ⟨t, raw, hmalformed, _⟩ := ofConfiguration_eq_error_iff.mp he
    exact ⟨t, raw, hmalformed⟩
  · rintro ⟨t, raw, hmalformed⟩
    by_contra hnone
    obtain ⟨s, hs⟩ := exists_eq_ok_iff.mpr fun e he => hnone ⟨e, he⟩
    exact (ofConfiguration_eq_ok_iff.mp hs).not_malformed t raw hmalformed

/-- Odd spellings are read, and of two malformed settings the one that comes first is
reported. -/
theorem settings_read_as_spelled_odd :
    let spelled := Configuration.ofList [
      (versionName, " +01 . 2 "), (timestamptzName, " TrUE\n"), ("dialect.other", "on")]
    let malformed := Configuration.ofList [
      (versionName, "1.2.3.4"), (likePolicyName, " both "), (timestamptzName, "false")]
    ofConfiguration spelled = .ok { timestamptzForTime := true, version := some ⟨1, 2, 0⟩ } ∧
      ofConfiguration malformed = .error (.invalidSetting likePolicyName " both ") := by
  intro spelled malformed
  constructor
  · obtain ⟨hread, _, _⟩ := settings_read_as_spelled spelled
    have hword : Surrounded (BooleanSpelled true) " TrUE\n" :=
      (reads_boolean _ _).mp (by decide +kernel)
    obtain ⟨inner, hpadded, hinner⟩ : Surrounded (Version.Spelled ⟨1, 2, 0⟩) " +01 . 2 " :=
      (reads_version _ _).mp (by decide +kernel)
    refine (hread _).mpr ⟨.of_lookup " TrUE\n" (by decide +kernel) hword,
      .of_absent (by decide +kernel) rfl, ?_⟩
    exact .of_lookup " +01 . 2 " (by decide +kernel) ⟨inner, hpadded, _, rfl, hinner⟩
  · obtain ⟨_, _, hreport⟩ := settings_read_as_spelled malformed
    have hunknown : ¬Surrounded Setting.likePolicy.Spelled " both " := by
      rintro ⟨inner, hpadded, p, hp⟩
      have hparse := (reads_likePolicy " both " p).mpr ⟨inner, hpadded, hp⟩
      revert hparse
      cases p <;> decide +kernel
    have hword : malformed.Holds timestamptzName (BooleanSpelled false) True :=
      .of_lookup "false" (by decide +kernel) ((reads_boolean _ _).mp (by decide +kernel))
    have hmalformed : Setting.likePolicy.Malformed malformed " both " :=
      ⟨by decide +kernel, hunknown⟩
    refine (hreport _).mpr ⟨.likePolicy, " both ", hmalformed, ?_, rfl⟩
    intro u hu other
    cases List.mem_singleton.mp hu
    exact hword.not_malformed fun _ hspelled => ⟨false, hspelled⟩

end SpannerSettings

end SqlBackend
