import CouponDesk.Proofs.Settings.Validation

/-!
# Settings of a folder and an environment

The optional file stands for settings, the defaults if it is absent, unless there is something wrong
with it.  What is wrong with it comes before all else; then the environment may give another
address, which must not be blank and which replaces nothing but the address.
-/

set_option autoImplicit false

namespace CouponDesk.Settings

/-- The settings that an optional file stands for. -/
inductive Stated : Option (Except FileFault String) → Settings → Prop
  | absent : Stated none {}
  | parsed (text : String) (s : Settings) (accepted : parse text = .ok s) :
      Stated (some (.ok text)) s

inductive Faulty : Option (Except FileFault String) → Error → Prop
  | unreadable (fault : FileFault) :
      Faulty (some (.error fault)) (.config (.unreadable defaultPath fault))
  | refused (text : String) (e : Error) (rejected : parse text = .error e) :
      Faulty (some (.ok text)) e

theorem stated_or_faulty (file : Option (Except FileFault String)) :
    (∃ base, Stated file base) ∨ ∃ e, Faulty file e := by
  rcases file with _ | fault | text
  · exact Or.inl ⟨{}, .absent⟩
  · exact Or.inr ⟨_, .unreadable fault⟩
  · cases parsed : parse text with
    | error e => exact Or.inr ⟨e, .refused text e parsed⟩
    | ok s => exact Or.inl ⟨s, .parsed text s parsed⟩

theorem Stated.unique {file : Option (Except FileFault String)} {base base' : Settings}
    (stated : Stated file base) (stated' : Stated file base') : base = base' := by
  cases stated with
  | absent => cases stated'; rfl
  | parsed text s accepted =>
      cases stated' with
      | parsed text s' accepted' => exact Except.ok.inj (accepted.symm.trans accepted')

theorem Faulty.unique {file : Option (Except FileFault String)} {e e' : Error}
    (faulty : Faulty file e) (faulty' : Faulty file e') : e = e' := by
  cases faulty with
  | unreadable fault => cases faulty'; rfl
  | refused text e rejected =>
      cases faulty' with
      | refused text e' rejected' => exact Except.error.inj (rejected.symm.trans rejected')

theorem Stated.not_faulty {file : Option (Except FileFault String)} {base : Settings}
    (stated : Stated file base) (e : Error) : ¬ Faulty file e := by
  intro faulty
  cases stated with
  | absent => cases faulty
  | parsed text s accepted =>
      cases faulty with
      | refused text e rejected => cases accepted.symm.trans rejected

theorem Stated.valid {file : Option (Except FileFault String)} {base : Settings}
    (stated : Stated file base) : base.fault? = none := by
  cases stated with
  | absent => exact valid_default
  | parsed text s accepted => exact valid_of_ofRead defaultPath (.ok text) base accepted

theorem checked_of_valid {s : Settings} (valid : s.fault? = none) : s.checked = .ok s := by
  rw [checked, s.validate_eq_ok_iff.mpr valid]
  rfl

theorem checked_eq_error_iff (s : Settings) (e : Error) :
    s.checked = .error e ↔ s.validate = .error e := by
  unfold checked
  cases s.validate with
  | error e' => simp [Except.map]
  | ok passed => exact ⟨nofun, nofun⟩

theorem config_of_validate {s : Settings} {e : Error} (refused : s.validate = .error e) :
    ∃ fault, e = .config fault := by
  obtain ⟨fault, -, rfl⟩ := (s.validate_eq_error_iff e).mp refused
  exact ⟨fault, rfl⟩

theorem config_of_parse {text : String} {e : Error} (rejected : parse text = .error e) :
    ∃ fault, e = .config fault := by
  unfold parse at rejected
  split at rejected
  · exact config_of_validate ((checked_eq_error_iff _ e).mp rejected)
  · cases rejected
    exact ⟨.malformed, rfl⟩

theorem Faulty.config {file : Option (Except FileFault String)} {e : Error}
    (faulty : Faulty file e) : ∃ fault, e = .config fault := by
  cases faulty with
  | unreadable fault => exact ⟨_, rfl⟩
  | refused text e rejected => exact config_of_parse rejected

/-- Valid settings fail with another address only if it is blank. -/
theorem fault?_withUrl {base : Settings} (valid : base.fault? = none) (url : String) :
    (base.withUrl url).fault? = if Text.NonBlank url then none else some .blankUrl := by
  have runnable := base.fault?_eq_none_iff.mp valid
  split_ifs with worded
  · apply (fault?_eq_none_iff _).mpr
    exact ⟨worded, runnable.connections, runnable.attempts, runnable.seeds⟩
  · exact if_pos ((Text.isBlankText_iff url).mpr worded)

theorem resolve_of_faulty {file : Option (Except FileFault String)} {e : Error}
    (faulty : Faulty file e) (url? : Option String) : resolve file url? = .error e := by
  cases faulty with
  | unreadable fault => rfl
  | refused text e rejected =>
      change (parse text >>= _) = _
      rw [rejected]
      rfl

def overridden (base : Settings) (url? : Option String) : Settings :=
  { base with database := { base.database with url := url?.getD base.database.url } }

theorem resolve_of_stated {file : Option (Except FileFault String)} {base : Settings}
    (stated : Stated file base) (url? : Option String) :
    resolve file url? =
      match url? with
      | some url => (base.withUrl url).checked
      | none => .ok base := by
  cases stated with
  | absent => rfl
  | parsed text s accepted =>
      change (parse text >>= _) = _
      rw [accepted]
      rfl

/-- An environment without an address, or with one that is not blank. -/
def Usable (url? : Option String) : Prop := ∀ url, url? = some url → Text.NonBlank url

theorem resolve_of_usable {file : Option (Except FileFault String)} {base : Settings}
    (stated : Stated file base) {url? : Option String} (usable : Usable url?) :
    resolve file url? = .ok (base.overridden url?) := by
  rw [resolve_of_stated stated]
  cases url? with
  | none => rfl
  | some url =>
      apply checked_of_valid
      rw [fault?_withUrl stated.valid, if_pos (usable url rfl)]

theorem resolve_of_unusable {file : Option (Except FileFault String)} {base : Settings}
    (stated : Stated file base) {url? : Option String} (unusable : ¬ Usable url?) :
    resolve file url? = .error (.config .blankUrl) := by
  rw [resolve_of_stated stated]
  cases url? with
  | none => exact absurd nofun unusable
  | some url =>
      have blank : ¬ Text.NonBlank url := by
        intro worded
        apply unusable
        rintro _ ⟨⟩
        exact worded
      apply (checked_eq_error_iff _ _).mpr
      apply (validate_eq_error_iff _ _).mpr
      exact ⟨.blankUrl, by rw [fault?_withUrl stated.valid, if_neg blank], rfl⟩

theorem resolve_ok_iff (file : Option (Except FileFault String)) (url? : Option String)
    (c : Settings) :
    resolve file url? = .ok c ↔
      Usable url? ∧ ∃ base, Stated file base ∧ c = base.overridden url? := by
  rcases stated_or_faulty file with ⟨base, stated⟩ | ⟨e, faulty⟩
  · by_cases usable : Usable url?
    · rw [resolve_of_usable stated usable]
      constructor
      · rintro ⟨⟩
        exact ⟨usable, base, stated, rfl⟩
      · rintro ⟨-, base', stated', rfl⟩
        rw [stated.unique stated']
    · rw [resolve_of_unusable stated usable]
      exact ⟨nofun, fun loaded => absurd loaded.1 usable⟩
  · rw [resolve_of_faulty faulty]
    exact ⟨nofun, fun ⟨_, _, stated, _⟩ => absurd faulty (stated.not_faulty e)⟩

theorem resolve_error_iff (file : Option (Except FileFault String)) (url? : Option String)
    (e : Error) :
    resolve file url? = .error e ↔
      Faulty file e ∨ (∃ base, Stated file base) ∧ ¬ Usable url? ∧ e = .config .blankUrl := by
  rcases stated_or_faulty file with ⟨base, stated⟩ | ⟨e', faulty⟩
  · by_cases usable : Usable url?
    · rw [resolve_of_usable stated usable]
      refine ⟨nofun, ?_⟩
      rintro (faulty | ⟨-, unusable, -⟩)
      · exact absurd faulty (stated.not_faulty e)
      · exact absurd usable unusable
    · rw [resolve_of_unusable stated usable, Except.error.injEq]
      constructor
      · rintro rfl
        exact Or.inr ⟨⟨base, stated⟩, usable, rfl⟩
      · rintro (faulty | ⟨-, -, rfl⟩)
        · exact absurd faulty (stated.not_faulty e)
        · rfl
  · rw [resolve_of_faulty faulty, Except.error.injEq]
    constructor
    · rintro rfl
      exact Or.inl faulty
    · rintro (faulty' | ⟨⟨base, stated⟩, -⟩)
      · exact faulty.unique faulty'
      · exact absurd faulty (stated.not_faulty e')

theorem config_of_loadAll (files : Files) (env : Environment) {e : Error}
    (failed : loadAll files env = .error e) : ∃ fault, e = .config fault := by
  rcases (resolve_error_iff _ _ e).mp failed with faulty | ⟨-, -, rfl⟩
  · exact faulty.config
  · exact ⟨.blankUrl, rfl⟩

/-- The settings of a folder and an environment: those of the file, or the defaults, with no other
field changed than the address.  They are valid, and what is wrong with the file is reported before
anything the environment says. -/
theorem loadAll_overrides (files : Files) (env : Environment) :
    (∀ c, loadAll files env = .ok c ↔
      (∀ url, env.lookup urlVariable = some url → Text.NonBlank url) ∧
      ∃ base, Stated (file? files) base ∧
        c = { base with
          database := { base.database with
            url := (env.lookup urlVariable).getD base.database.url } }) ∧
    (∀ c, loadAll files env = .ok c → c.validate = .ok () ∧
      ∀ env' c', loadAll files env' = .ok c' →
        c'.coupons = c.coupons ∧ c'.claims = c.claims ∧
          c'.database = { c.database with url := c'.database.url }) ∧
    (∀ e, loadAll files env = .error e ↔
      Faulty (file? files) e ∨
        (∃ base, Stated (file? files) base) ∧
          (∃ url, env.lookup urlVariable = some url ∧ ¬ Text.NonBlank url) ∧
          e = .config .blankUrl) ∧
    (∀ e, loadAll files env = .error e → ∃ fault, e = .config fault) ∧
    (Error.config .blankUrl).message = "Configuration error: database.url cannot be empty" := by
  have unusable_iff : (∃ url, env.lookup urlVariable = some url ∧ ¬ Text.NonBlank url) ↔
      ¬ Usable (env.lookup urlVariable) := by
    simp [Usable]
  refine ⟨fun c => resolve_ok_iff _ _ c, ?_, fun e => ?_, fun _ => config_of_loadAll files env, rfl⟩
  · intro c loaded
    refine ⟨c.validate_eq_ok_iff.mpr (valid_of_loadAll files env c loaded), ?_⟩
    intro env' c' loaded'
    obtain ⟨-, base, stated, rfl⟩ := (resolve_ok_iff _ _ c).mp loaded
    obtain ⟨-, base', stated', rfl⟩ := (resolve_ok_iff _ _ c').mp loaded'
    obtain rfl := stated.unique stated'
    exact ⟨rfl, rfl, rfl⟩
  · rw [unusable_iff]
    exact resolve_error_iff _ _ e

def configured : Files :=
  { root := .folder [("config.toml", .file (Text.bytes "[claims]\nmax_attempts = 7\n"))] }

theorem file?_configured : file? configured = some (.ok "[claims]\nmax_attempts = 7\n") := by
  have located : configured.locate defaultPath = .ok ["config.toml"] := rfl
  have text : Text.ofBytes? (Text.bytes "[claims]\nmax_attempts = 7\n") =
      some "[claims]\nmax_attempts = 7\n" := by decide +kernel
  simp only [file?, Files.at?, Files.readText, Files.readBytes, located]
  simp [configured, Node.find?, text, Except.bind, Bind.bind, pure, Except.pure]

theorem loadAll_overrides_staged :
    let base : Settings := { claims := { maxAttempts := 7 } }
    let staged : Settings := { base with database := { url := "sqlite::memory:" } }
    Stated (file? configured) base ∧
      loadAll configured [] = .ok base ∧
      loadAll configured [("DATABASE_URL", "sqlite::memory:")] = .ok staged ∧
      staged.validate = .ok () ∧ base.claims = staged.claims ∧
      loadAll configured [("DATABASE_URL", "\t ")] = .error (.config .blankUrl) := by
  intro base staged
  have stated : Stated (file? configured) base := by
    rw [file?_configured]
    exact .parsed _ base (parse_eq_ok (by decide +kernel) (by decide))
  have plain : loadAll configured [] = .ok base :=
    ((loadAll_overrides configured []).1 base).mpr ⟨nofun, base, stated, rfl⟩
  obtain ⟨loads, independent, -, -, -⟩ :=
    loadAll_overrides configured [("DATABASE_URL", "sqlite::memory:")]
  obtain ⟨-, -, fails, -, -⟩ := loadAll_overrides configured [("DATABASE_URL", "\t ")]
  have replaced := (loads staged).mpr ⟨by rintro _ ⟨⟩; decide, base, stated, rfl⟩
  obtain ⟨valid, others⟩ := independent staged replaced
  refine ⟨stated, plain, replaced, valid, (others [] base plain).2.1, ?_⟩
  exact (fails _).mpr (Or.inr ⟨⟨base, stated⟩, ⟨"\t ", rfl, by decide⟩, rfl⟩)

end CouponDesk.Settings
