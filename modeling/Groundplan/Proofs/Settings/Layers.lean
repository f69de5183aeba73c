/-
The value that counts for a setting.

The environment puts its values in the place of those of the file before anything is
checked.  What is checked is therefore, for each setting, one value: that of its variable if
it says something, else that of the file.  All four are checked together, so that one refused
value leaves no settings at all.
-/
import Groundplan.Proofs.Datum.Entries
import Groundplan.Proofs.Spec.Accepted
import Groundplan.Settings.Basic

namespace Groundplan
namespace Settings

/-! ## Values -/

/-- What a variable of the environment says, if it is set and not empty. -/
def said? (environment : Environment) (source : String) : Option String :=
  (environment.lookup source).filter fun value => !value.isEmpty

/-- The value that counts for a setting, if there is one: that of the environment, else that
of the file. -/
def layered (environment : Environment) (entries : List (Datum × Datum)) (source name : String) :
    Option Datum :=
  ((said? environment source).map Datum.text).or (valueOf? name entries)

theorem valueOf?_cons_self (name : String) (v : Datum) (es : List (Datum × Datum)) :
    valueOf? name ((.text name, v) :: es) = some v :=
  if_pos rfl

theorem valueOf?_cons_of_ne {name : String} {k : Datum} (h : k ≠ .text name) (v : Datum)
    (es : List (Datum × Datum)) : valueOf? name ((k, v) :: es) = valueOf? name es := by
  cases k with
  | text s => exact if_neg fun hs => h (congrArg Datum.text hs)
  | _ => rfl

/-- Setting one name changes the value of this name only. -/
theorem valueOf?_insertEntry (name key : String) (value : Datum) (es : List (Datum × Datum)) :
    valueOf? name (Datum.insertEntry (.text key) value es) =
      if name = key then some value else valueOf? name es := by
  have htext : name ≠ key → Datum.text key ≠ .text name := fun hne h => hne (Datum.text.inj h).symm
  induction es with
  | nil =>
    rw [Datum.insertEntry]
    split
    · rename_i hname
      rw [hname, valueOf?_cons_self]
    · rename_i hname
      exact valueOf?_cons_of_ne (htext hname) _ _
  | cons e es ih =>
    obtain ⟨k, v⟩ := e
    rw [Datum.insertEntry]
    by_cases hk : Datum.sameKey k (.text key) = true
    · rw [if_pos hk, Datum.sameKey_text_iff.mp hk]
      split
      · rename_i hname
        rw [hname, valueOf?_cons_self]
      · rename_i hname
        rw [valueOf?_cons_of_ne (htext hname), valueOf?_cons_of_ne (htext hname)]
    · rw [if_neg hk]
      by_cases hkname : k = .text name
      · have hname : name ≠ key := fun h => hk (Datum.sameKey_text_iff.mpr (h ▸ hkname))
        rw [hkname, valueOf?_cons_self, valueOf?_cons_self, if_neg hname]
      · rw [valueOf?_cons_of_ne hkname, valueOf?_cons_of_ne hkname, ih]

/-- What one variable does to the entries of the file. -/
def overlay (environment : Environment) (entries : List (Datum × Datum)) (p : String × String) :
    List (Datum × Datum) :=
  match said? environment p.1 with
  | some value => Datum.insertEntry (.text p.2) (.text value) entries
  | none => entries

theorem override_eq_foldl (environment : Environment) (entries : List (Datum × Datum)) :
    override environment entries = environmentNames.foldl (overlay environment) entries := by
  refine congrArg (fun f => environmentNames.foldl f entries) ?_
  funext entries ⟨source, name⟩
  rw [overlay, said?]
  dsimp only
  cases environment.lookup source with
  | none => rfl
  | some value =>
    rw [Option.filter_some]
    dsimp only
    cases value.isEmpty <;> rfl

theorem valueOf?_overlay (environment : Environment) (entries : List (Datum × Datum))
    (name : String) (p : String × String) :
    valueOf? name (overlay environment entries p) =
      if name = p.2 then layered environment entries p.1 p.2 else valueOf? name entries := by
  rw [overlay, layered]
  cases said? environment p.1 with
  | none =>
    rw [Option.map_none, Option.none_or]
    by_cases hname : name = p.2
    · rw [if_pos hname, hname]
    · rw [if_neg hname]
  | some value => exact valueOf?_insertEntry name p.2 _ entries

theorem valueOf?_foldl_of_notMem {environment : Environment} {entries : List (Datum × Datum)}
    {name : String} {ps : List (String × String)} (h : name ∉ ps.map Prod.snd) :
    valueOf? name (ps.foldl (overlay environment) entries) = valueOf? name entries := by
  induction ps generalizing entries with
  | nil => rfl
  | cons p ps ih =>
    rw [List.map_cons, List.mem_cons, not_or] at h
    rw [List.foldl_cons, ih h.2, valueOf?_overlay, if_neg h.1]

/-- Of settings with different names, each has the value that counts for it. -/
theorem valueOf?_foldl_of_mem {environment : Environment} {entries : List (Datum × Datum)}
    {p : String × String} {ps : List (String × String)} (hnodup : (ps.map Prod.snd).Nodup)
    (hp : p ∈ ps) :
    valueOf? p.2 (ps.foldl (overlay environment) entries) =
      layered environment entries p.1 p.2 := by
  induction ps generalizing entries with
  | nil => cases hp
  | cons q ps ih =>
    rw [List.map_cons, List.nodup_cons] at hnodup
    rw [List.foldl_cons]
    rcases List.mem_cons.mp hp with rfl | hp
    · rw [valueOf?_foldl_of_notMem hnodup.1, valueOf?_overlay, if_pos rfl]
    · have hne : p.2 ≠ q.2 := fun h => hnodup.1 (h ▸ List.mem_map_of_mem hp)
      rw [ih hnodup.2 hp, layered, layered, valueOf?_overlay, if_neg hne]

theorem valueOf?_override (environment : Environment) (entries : List (Datum × Datum))
    (source name : String) (h : (source, name) ∈ environmentNames) :
    valueOf? name (override environment entries) = layered environment entries source name := by
  rw [override_eq_foldl]
  exact valueOf?_foldl_of_mem (p := (source, name)) (by decide) h

/-! ## Checking -/

/-- A setting has its default where nothing counts for it, and else what its value is read as. -/
inductive Reads {α : Type} (default : α) (decode : Datum → Checked α) : Option Datum → α → Prop
  | absent : Reads default decode none default
  | present {d : Datum} {a : α} (h : decode d = .ok a) : Reads default decode (some d) a

def drainTimeoutOf (d : Datum) : Checked Quantity := Quantity.real <$> Coercion.real d

/-- The settings that an environment and the entries of a file make. -/
structure IsConfigured (environment : Environment) (entries : List (Datum × Datum)) (s : Settings) :
    Prop where
  specFile : Reads "score.yaml" text
    (layered environment entries "SCOREFORM_SPEC_FILE" "spec_file") s.specFile
  terraformDir : Reads "terraform" text
    (layered environment entries "SCOREFORM_TERRAFORM_DIR" "terraform_dir") s.terraformDir
  /-- One of two words and nothing else. -/
  credentials :
    layered environment entries "SCOREFORM_DB_CREDENTIALS" "db_credentials" = none ∧
        s.credentials = .managed ∨
      layered environment entries "SCOREFORM_DB_CREDENTIALS" "db_credentials" =
        some (.text s.credentials.toWord)
  drainTimeout : Reads (.whole 600) drainTimeoutOf
    (layered environment entries "SCOREFORM_DRAIN_TIMEOUT" "drain_timeout") s.drainTimeout

/-- What stands against the value that counts for a setting. -/
def against {α : Type} (name : String) (decode : Datum → Checked α) : Option Datum → List Violation
  | none => []
  | some d => ((decode d).within name).violations

/-- What stands against an environment and the entries of a file. -/
def refusals (environment : Environment) (entries : List (Datum × Datum)) : List Violation :=
  against "spec_file" text (layered environment entries "SCOREFORM_SPEC_FILE" "spec_file") ++
    against "terraform_dir" text
      (layered environment entries "SCOREFORM_TERRAFORM_DIR" "terraform_dir") ++
    against "db_credentials" credentialsOf
      (layered environment entries "SCOREFORM_DB_CREDENTIALS" "db_credentials") ++
    against "drain_timeout" drainTimeoutOf
      (layered environment entries "SCOREFORM_DRAIN_TIMEOUT" "drain_timeout")

/-- The check of the value that counts for a setting. -/
def checked {α : Type} (default : α) (name : String) (decode : Datum → Checked α) :
    Option Datum → Checked α
  | none => .ok default
  | some d => (decode d).within name

theorem checked_ok_iff {α : Type} {default a : α} {name : String} {decode : Datum → Checked α}
    {d? : Option Datum} : checked default name decode d? = .ok a ↔ Reads default decode d? a := by
  cases d? with
  | none =>
    constructor
    · intro h
      cases h
      exact .absent
    · rintro ⟨⟩
      rfl
  | some d =>
    constructor
    · exact fun h => .present (Checked.ok_of_within h)
    · rintro (_ | h)
      rw [checked, h]
      rfl

theorem violations_checked {α : Type} (default : α) (name : String) (decode : Datum → Checked α)
    (d? : Option Datum) : (checked default name decode d?).violations = against name decode d? := by
  cases d? <;> rfl

theorem fieldOr_singleton {α : Type} (default : α) (name : String) (decode : Datum → Checked α)
    (es : List (Datum × Datum)) :
    fieldOr default [name] decode es = checked default name decode (valueOf? name es) := by
  rw [fieldOr, lookupField, List.findSome?_singleton]
  cases valueOf? name es <;> rfl

/-- Settings are read from what counts for each of them and from nothing else. -/
theorem decode_override (environment : Environment) (entries : List (Datum × Datum)) :
    decode (override environment entries) = mk <$>
      checked "score.yaml" "spec_file" text
        (layered environment entries "SCOREFORM_SPEC_FILE" "spec_file") <*>
      checked "terraform" "terraform_dir" text
        (layered environment entries "SCOREFORM_TERRAFORM_DIR" "terraform_dir") <*>
      checked .managed "db_credentials" credentialsOf
        (layered environment entries "SCOREFORM_DB_CREDENTIALS" "db_credentials") <*>
      checked (.whole 600) "drain_timeout" drainTimeoutOf
        (layered environment entries "SCOREFORM_DRAIN_TIMEOUT" "drain_timeout") := by
  have hvalue := valueOf?_override environment entries
  rw [decode, fieldOr_singleton, fieldOr_singleton, fieldOr_singleton, fieldOr_singleton,
    hvalue "SCOREFORM_SPEC_FILE" "spec_file" (by decide),
    hvalue "SCOREFORM_TERRAFORM_DIR" "terraform_dir" (by decide),
    hvalue "SCOREFORM_DB_CREDENTIALS" "db_credentials" (by decide),
    hvalue "SCOREFORM_DRAIN_TIMEOUT" "drain_timeout" (by decide)]
  rfl

theorem ofWord?_eq_some_iff {word : String} {c : Credentials} :
    Credentials.ofWord? word = some c ↔ word = c.toWord := by
  rw [Credentials.ofWord?, Credentials.words, List.lookup_cons, List.lookup_cons, List.lookup_nil]
  cases hm : word == "managed" with
  | true =>
    rw [beq_iff_eq.mp hm]
    cases c <;> decide
  | false =>
    have hne := ne_of_beq_false hm
    cases hp : word == "placeholder" with
    | true =>
      rw [beq_iff_eq.mp hp]
      cases c <;> decide
    | false =>
      have hne' := ne_of_beq_false hp
      cases c <;> simp [Credentials.toWord, hne, hne']

theorem credentialsOf_ok_iff {d : Datum} {c : Credentials} :
    credentialsOf d = .ok c ↔ d = .text c.toWord := by
  constructor
  · intro h
    obtain ⟨word, hword, hc⟩ := Checked.ok_of_andThen h
    have hd : d = .text word ∧ word ∈ ["managed", "placeholder"] := by
      unfold Coercion.choice at hword
      split at hword
      · split at hword
        · rename_i hs
          cases hword
          exact ⟨rfl, List.contains_iff_mem.mp hs⟩
        · cases hword
      · cases hword
    obtain ⟨rfl, hmem⟩ := hd
    rcases List.mem_pair.mp hmem with rfl | rfl
    · rw [← Checked.ok.inj hc]
      rfl
    · rw [← Checked.ok.inj hc]
      rfl
  · rintro rfl
    cases c <;> rfl

theorem reads_credentials_iff {d? : Option Datum} {c : Credentials} :
    Reads .managed credentialsOf d? c ↔ d? = none ∧ c = .managed ∨ d? = some (.text c.toWord) := by
  constructor
  · rintro (_ | h)
    · exact .inl ⟨rfl, rfl⟩
    · exact .inr (congrArg some (credentialsOf_ok_iff.mp h))
  · rintro (⟨rfl, rfl⟩ | rfl)
    · exact .absent
    · exact .present (credentialsOf_ok_iff.mpr rfl)

/-- Settings are accepted exactly if they are made by what counts for each of them. -/
theorem decode_override_ok_iff {environment : Environment} {entries : List (Datum × Datum)}
    {s : Settings} :
    decode (override environment entries) = .ok s ↔ IsConfigured environment entries s := by
  rw [decode_override]
  constructor
  · intro h
    obtain ⟨_, drainTimeout, h₁, hdrainTimeout, rfl⟩ := Checked.ok_of_seq h
    obtain ⟨_, credentials, h₂, hcredentials, rfl⟩ := Checked.ok_of_seq h₁
    obtain ⟨_, terraformDir, h₃, hterraformDir, rfl⟩ := Checked.ok_of_seq h₂
    obtain ⟨specFile, hspecFile, rfl⟩ := Checked.ok_of_map h₃
    exact ⟨checked_ok_iff.mp hspecFile, checked_ok_iff.mp hterraformDir,
      reads_credentials_iff.mp (checked_ok_iff.mp hcredentials), checked_ok_iff.mp hdrainTimeout⟩
  · intro h
    rw [checked_ok_iff.mpr h.specFile, checked_ok_iff.mpr h.terraformDir,
      checked_ok_iff.mpr (reads_credentials_iff.mpr h.credentials),
      checked_ok_iff.mpr h.drainTimeout]
    rfl

theorem violations_seq {α β : Type} (f : Checked (α → β)) (x : Checked α) :
    (f <*> x).violations = f.violations ++ x.violations := by
  cases f with
  | ok f => cases x <;> rfl
  | bad vs => rfl

theorem violations_map {α β : Type} (f : α → β) (x : Checked α) :
    (f <$> x).violations = x.violations := by
  cases x <;> rfl

theorem refusals_decode_override (environment : Environment) (entries : List (Datum × Datum)) :
    (decode (override environment entries)).violations = refusals environment entries := by
  rw [decode_override, violations_seq, violations_seq, violations_seq, violations_map,
    violations_checked, violations_checked, violations_checked, violations_checked]
  rfl

/-- Two files that agree wherever the environment says nothing make the same settings. -/
theorem decode_override_congr {environment : Environment} {entries entries' : List (Datum × Datum)}
    (h : ∀ p ∈ environmentNames, said? environment p.1 = none →
      valueOf? p.2 entries = valueOf? p.2 entries') :
    decode (override environment entries) = decode (override environment entries') := by
  have hlayered : ∀ source name, (source, name) ∈ environmentNames →
      layered environment entries source name = layered environment entries' source name := by
    intro source name hp
    rw [layered, layered]
    cases hsaid : said? environment source with
    | none => rw [h _ hp hsaid]
    | some value => rfl
  rw [decode_override, decode_override,
    hlayered "SCOREFORM_SPEC_FILE" "spec_file" (by decide),
    hlayered "SCOREFORM_TERRAFORM_DIR" "terraform_dir" (by decide),
    hlayered "SCOREFORM_DB_CREDENTIALS" "db_credentials" (by decide),
    hlayered "SCOREFORM_DRAIN_TIMEOUT" "drain_timeout" (by decide)]

end Settings
end Groundplan
