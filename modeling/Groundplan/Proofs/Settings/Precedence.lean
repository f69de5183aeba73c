/-
Where settings come from.

They are those of the nearest marked directory, and this is also where the paths in them
start.  Its file is read as a whole before anything is put in its place: a variable takes
away a value of the file but not a fault of its text.  An argument comes before all of this,
and neither the disk nor the environment is asked.
-/
import Groundplan.Command.Run
import Groundplan.Proofs.Result
import Groundplan.Proofs.Settings.Layers
import Groundplan.Proofs.Storage.Growth
import Groundplan.Settings.Lookup

namespace Groundplan
namespace Settings

open Storage

/-! ## The file -/

/-- What a file of settings holds.  One that is not there and one without a document hold
nothing. -/
inductive FileHolds (d : Disk) (path : Path) : List (Datum × Datum) → Prop
  | absent (h : d.isPresent path = false) : FileHolds d path []
  | nothing {text : String} {document : Datum} (hpresent : d.isPresent path = true)
      (htext : d.readText path = .ok text) (hparse : Yaml.parse text = .ok document)
      (h : document.isNothing = true) : FileHolds d path []
  | mapping {text : String} {entries : List (Datum × Datum)} (hpresent : d.isPresent path = true)
      (htext : d.readText path = .ok text) (hparse : Yaml.parse text = .ok (.mapping entries))
      (h : entries ≠ []) : FileHolds d path entries

theorem readFile_ok_iff {d : Disk} {path : Path} {entries : List (Datum × Datum)} :
    readFile d path = .ok entries ↔ FileHolds d path entries := by
  constructor
  · intro h
    unfold readFile at h
    split at h
    · rename_i hpresent
      obtain ⟨text, htext, h⟩ := ok_of_bind h
      obtain ⟨document, hparse, h⟩ := ok_of_bind h
      have htext := ok_of_mapError htext
      have hparse := ok_of_mapError hparse
      split at h
      · rename_i hnothing
        cases h
        exact .nothing hpresent htext hparse hnothing
      · rename_i hsome
        split at h
        · cases h
          exact .mapping hpresent htext hparse fun hnil => hsome (hnil ▸ rfl)
        · cases h
    · rename_i habsent
      cases h
      exact .absent (Bool.eq_false_iff.mpr habsent)
  · rintro (habsent | ⟨hpresent, htext, hparse, hnothing⟩ | ⟨hpresent, htext, hparse, hne⟩)
    · rw [readFile, if_neg (Bool.eq_false_iff.mp habsent)]
    · rw [readFile, if_pos hpresent, htext]
      dsimp only [Except.mapError]
      rw [ok_bind, hparse, ok_bind, if_pos hnothing]
      rfl
    · have hsome : ¬(Datum.mapping entries).isNothing = true := fun h => hne (List.isEmpty_iff.mp h)
      rw [readFile, if_pos hpresent, htext]
      dsimp only [Except.mapError]
      rw [ok_bind, hparse, ok_bind, if_neg hsome]
      rfl

/-- Checks what the environment and a file say. -/
def configure (environment : Environment) (entries : List (Datum × Datum)) :
    Except Fault Settings :=
  match decode (override environment entries) with
  | .ok s => .ok s
  | .bad vs => .error (.violations vs)

theorem configure_ok_iff {environment : Environment} {entries : List (Datum × Datum)}
    {s : Settings} :
    configure environment entries = .ok s ↔ IsConfigured environment entries s := by
  rw [← decode_override_ok_iff, configure]
  cases decode (override environment entries) with
  | ok s' =>
    constructor
    · rintro ⟨⟩
      rfl
    · rintro ⟨⟩
      rfl
  | bad vs =>
    constructor
    · rintro ⟨⟩
    · rintro ⟨⟩

theorem configure_error_iff {environment : Environment} {entries : List (Datum × Datum)}
    {f : Fault} : configure environment entries = .error f ↔
      (∀ s, ¬IsConfigured environment entries s) ∧
        f = .violations (refusals environment entries) := by
  rw [← refusals_decode_override, configure]
  simp only [← decode_override_ok_iff]
  cases decode (override environment entries) with
  | ok s => exact ⟨fun h => (error_ne_ok h.symm).elim, fun h => (h.1 s rfl).elim⟩
  | bad vs =>
    constructor
    · intro h
      exact ⟨fun s hs => (nomatch hs), (Except.error.inj h).symm⟩
    · rintro ⟨-, rfl⟩
      rfl

/-! ## The base -/

def IsMarked (d : Disk) (l : Location) : Prop := d.isDirectory ((absolute l).child marker) = true

/-- Where paths in settings start: the nearest marked directory from the current one upwards,
or the current one if there is none. -/
inductive IsBase (d : Disk) : Location → Prop
  | marked {l : Location} (h : IsMarked d l) (habove : l <+: d.cwd)
      (hnearest : ∀ l', IsMarked d l' → l' <+: d.cwd → l' <+: l) : IsBase d l
  | unmarked (h : ∀ l, IsMarked d l → ¬l <+: d.cwd) : IsBase d d.cwd

def settingsFile (base : Location) : Path := ((absolute base).child marker).child "config.yaml"

theorem IsBase.unique {d : Disk} {l l' : Location} (h : IsBase d l) (h' : IsBase d l') :
    l = l' := by
  cases h with
  | marked hl habove hnearest =>
    cases h' with
    | marked hl' habove' hnearest' =>
      have h₁ := hnearest l' hl' habove'
      have h₂ := hnearest' l hl habove
      exact h₂.eq_of_length (Nat.le_antisymm h₂.length_le h₁.length_le)
    | unmarked hno => exact absurd habove (hno l hl)
  | unmarked hno =>
    cases h' with
    | marked hl' habove' _ => exact absurd habove' (hno l' hl')
    | unmarked _ => rfl

/-- The locations from one upwards are its beginnings, the longest first. -/
theorem find?_upwards_eq_some {p : Location → Bool} {cwd l : Location}
    (h : (upwards cwd).find? p = some l) :
    p l = true ∧ l <+: cwd ∧ ∀ l', p l' = true → l' <+: cwd → l' <+: l := by
  rw [upwards, List.find?_map, Option.map_eq_some_iff] at h
  obtain ⟨k, hk, rfl⟩ := h
  rw [List.find?_range_eq_some] at hk
  obtain ⟨hp, hrange, hbefore⟩ := hk
  refine ⟨hp, List.take_prefix _ _, fun l' hl' habove => ?_⟩
  have hle := habove.length_le
  refine List.prefix_of_prefix_length_le habove (List.take_prefix _ _) ?_
  rw [List.length_take]
  by_contra hlonger
  have hlater : cwd.length - l'.length < k := by omega
  have htake : cwd.take (cwd.length - (cwd.length - l'.length)) = l' := by
    rw [Nat.sub_sub_self hle]
    exact (List.prefix_iff_eq_take.mp habove).symm
  have hnot := hbefore _ hlater
  rw [Function.comp, htake, hl'] at hnot
  cases hnot

theorem find?_upwards_eq_none {p : Location → Bool} {cwd : Location}
    (h : (upwards cwd).find? p = none) {l : Location} (hl : p l = true) : ¬l <+: cwd := by
  intro habove
  have hmem : l ∈ upwards cwd := by
    have hle := habove.length_le
    refine List.mem_map.mpr ⟨cwd.length - l.length, List.mem_range.mpr (by omega), ?_⟩
    rw [Nat.sub_sub_self hle]
    exact (List.prefix_iff_eq_take.mp habove).symm
  exact List.find?_eq_none.mp h l hmem hl

theorem findRoot_eq (d : Disk) :
    findRoot d ⟨"", []⟩ =
      ((upwards d.cwd).find? fun l => d.isDirectory ((absolute l).child marker)).map absolute := rfl

/-- Nothing is present below what is no directory. -/
theorem isPresent_child {d : Disk} {p : Path} (h : d.isDirectory p = false) (name : String) :
    d.isPresent (p.child name) = false := by
  have hlocate : ∃ e, d.locate (p.child name) = .error e := by
    have hwalk : d.locate (p.child name) = d.locate p >>= fun l => d.walk l [name] :=
      Disk.walk_append d _ p.parts [name]
    rw [hwalk]
    cases hl : d.locate p with
    | error e => exact ⟨e, rfl⟩
    | ok l =>
      rw [ok_bind, Disk.walk]
      cases hentry : d.entry? l with
      | none => exact ⟨_, rfl⟩
      | some e =>
        cases e with
        | file bytes => exact ⟨_, rfl⟩
        | directory => exact absurd (Disk.isDirectory_iff.mpr ⟨l, hl, hentry⟩) (by rw [h]; decide)
  obtain ⟨e, he⟩ := hlocate
  rw [Disk.isPresent, Disk.stat?, he]
  rfl

theorem exists_isBase (d : Disk) : ∃ base, IsBase d base := by
  cases h : (upwards d.cwd).find? fun l => d.isDirectory ((absolute l).child marker) with
  | some l =>
    obtain ⟨hl, habove, hnearest⟩ := find?_upwards_eq_some h
    exact ⟨l, .marked hl habove hnearest⟩
  | none => exact ⟨d.cwd, .unmarked fun _ hl => find?_upwards_eq_none h hl⟩

/-- The settings are those of the file at the base, also where no directory is marked. -/
theorem current_eq {d : Disk} {base : Location} (hbase : IsBase d base)
    (environment : Environment) :
    current d environment = do
      let entries ← readFile d (settingsFile base)
      let s ← configure environment entries
      return (absolute base, s) := by
  have hload : ∀ root, load d environment (some root) =
      readFile d ((root.child marker).child "config.yaml") >>= configure environment := fun _ => rfl
  rw [current, findRoot_eq]
  cases h : (upwards d.cwd).find? fun l => d.isDirectory ((absolute l).child marker) with
  | some l =>
    obtain ⟨hl, habove, hnearest⟩ := find?_upwards_eq_some h
    obtain rfl := hbase.unique (.marked hl habove hnearest)
    dsimp only [Option.map_some, Option.getD_some]
    rw [hload, bind_assoc]
    rfl
  | none =>
    have hno : ∀ l, IsMarked d l → ¬l <+: d.cwd := fun _ hl => find?_upwards_eq_none h hl
    obtain rfl := hbase.unique (.unmarked hno)
    have hunmarked : d.isDirectory ((absolute d.cwd).child marker) = false :=
      Bool.eq_false_iff.mpr fun hl => hno _ hl (List.prefix_refl _)
    have hfile : readFile d (settingsFile d.cwd) = .ok [] :=
      readFile_ok_iff.mpr (.absent (isPresent_child hunmarked _))
    rw [hfile]
    rfl

theorem current_ok_iff {d : Disk} {base : Location} (hbase : IsBase d base)
    {environment : Environment} {root : Path} {s : Settings} :
    current d environment = .ok (root, s) ↔ root = absolute base ∧
      ∃ entries, FileHolds d (settingsFile base) entries ∧ IsConfigured environment entries s := by
  rw [current_eq hbase]
  constructor
  · intro h
    obtain ⟨entries, hentries, h⟩ := ok_of_bind h
    obtain ⟨s', hs, h⟩ := ok_of_bind h
    cases h
    exact ⟨rfl, entries, readFile_ok_iff.mp hentries, configure_ok_iff.mp hs⟩
  · rintro ⟨rfl, entries, hentries, hs⟩
    rw [readFile_ok_iff.mpr hentries, ok_bind, configure_ok_iff.mpr hs]
    rfl

theorem current_error_iff {d : Disk} {base : Location} (hbase : IsBase d base)
    {environment : Environment} {f : Fault} :
    current d environment = .error f ↔ readFile d (settingsFile base) = .error f ∨
      ∃ entries, FileHolds d (settingsFile base) entries ∧
        (∀ s, ¬IsConfigured environment entries s) ∧
          f = .violations (refusals environment entries) := by
  simp only [current_eq hbase, ← configure_error_iff, ← readFile_ok_iff]
  cases readFile d (settingsFile base) with
  | error e =>
    rw [error_bind]
    refine ⟨fun h => .inl (congrArg _ (Except.error.inj h)), ?_⟩
    rintro (h | ⟨_, h, -⟩)
    · exact congrArg _ (Except.error.inj h)
    · cases h
  | ok entries =>
    rw [ok_bind]
    constructor
    · intro h
      refine .inr ⟨entries, rfl, ?_⟩
      cases hs : configure environment entries with
      | ok s =>
        rw [hs] at h
        cases h
      | error e =>
        rw [hs, error_bind] at h
        exact congrArg _ (Except.error.inj h)
    · rintro (h | ⟨_, h, hs⟩)
      · cases h
      · cases h
        rw [hs]
        rfl

/-! ## Arguments -/

/-- A path of the settings, seen from their base.  An absolute one stays itself. -/
def fromBase (base : Location) (text : String) : Path :=
  if (Path.parse text).isAbsolute then .parse text else ⟨"/", base ++ (Path.parse text).parts⟩

/-- Where the settings of a disk and an environment come from, and what they and an argument
decide. -/
structure HasPrecedence (d : Disk) (environment : Environment) (base : Location) : Prop where
  isBase : ∀ l, IsBase d l ↔ l = base
  settings : ∀ root s, current d environment = .ok (root, s) ↔ root = absolute base ∧
    ∃ entries, FileHolds d (settingsFile base) entries ∧ IsConfigured environment entries s
  /-- The file cannot be read, or what counts for one of the settings is refused. -/
  fault : ∀ f, current d environment = .error f ↔ readFile d (settingsFile base) = .error f ∨
    ∃ entries, FileHolds d (settingsFile base) entries ∧
      (∀ s, ¬IsConfigured environment entries s) ∧ f = .violations (refusals environment entries)
  /-- A value in the file does not matter if the environment has one for the same setting. -/
  overridden : ∀ d' entries entries', IsBase d' base → FileHolds d (settingsFile base) entries →
    FileHolds d' (settingsFile base) entries' →
    (∀ p ∈ environmentNames, said? environment p.1 = none →
      valueOf? p.2 entries = valueOf? p.2 entries') →
    current d environment = current d' environment
  specArgument : ∀ a, a ≠ "" → specPath d environment (some a) = .ok (.parse a)
  spec : ∀ a ∈ [none, some ""],
    (∀ root s, current d environment = .ok (root, s) →
      specPath d environment a = if d.isPresent (fromBase base s.specFile)
        then .ok (fromBase base s.specFile) else .error (.noSpec (fromBase base s.specFile))) ∧
    ∀ f, current d environment = .error f → specPath d environment a = .error f
  terraformArgument : ∀ a, a ≠ "" → terraformPath d environment (some a) = .ok (.parse a)
  terraform : ∀ a ∈ [none, some ""],
    (∀ root s, current d environment = .ok (root, s) →
      terraformPath d environment a = .ok (fromBase base s.terraformDir)) ∧
    ∀ f, current d environment = .error f → terraformPath d environment a = .error f
  credentialsArgument : ∀ word, (∃ c, word = c.toWord ∧
      credentialsMode d environment (some word) = .ok c) ∨
    (∀ c : Credentials, word ≠ c.toWord) ∧
      credentialsMode d environment (some word) = .error .credentials
  credentials : (∀ root s, current d environment = .ok (root, s) →
      credentialsMode d environment none = .ok s.credentials) ∧
    ∀ f, current d environment = .error f → credentialsMode d environment none = .error f
  /-- A rollout waits as long as the settings say, whatever its arguments are. -/
  drainTimeout : ∀ {S : Type} (host : Command.Host S) (a : Command.DeployArguments),
    host.disk = d → host.environment = environment →
    (∀ t, Command.setup host a = .ok t → ∃ root s, current d environment = .ok (root, s) ∧
      t.drainTimeout = Command.seconds s.drainTimeout ∧
      terraformPath d environment a.directory = .ok t.directory) ∧
    ∀ f, current d environment = .error f → Command.setup host a = .error f

theorem given_of_ne {a : String} (h : a ≠ "") : given (some a) = some (.parse a) := by
  have hne : ¬a.isEmpty = true := fun he => h (String.isEmpty_iff.mp he)
  exact if_neg hne

theorem given_of_mem {a : Option String} (h : a ∈ [none, some ""]) : given a = none := by
  rcases List.mem_pair.mp h with rfl | rfl
  · rfl
  · rfl

theorem join_absolute (base : Location) (text : String) :
    (absolute base).join (.parse text) = fromBase base text := rfl

theorem credentialsMode_some (d : Disk) (environment : Environment) (word : String) :
    (∃ c, word = c.toWord ∧ credentialsMode d environment (some word) = .ok c) ∨
      (∀ c : Credentials, word ≠ c.toWord) ∧
        credentialsMode d environment (some word) = .error .credentials := by
  rw [credentialsMode]
  cases h : Credentials.ofWord? word with
  | some c => exact .inl ⟨c, ofWord?_eq_some_iff.mp h, rfl⟩
  | none =>
    refine .inr ⟨fun c hc => ?_, rfl⟩
    rw [ofWord?_eq_some_iff.mpr hc] at h
    cases h

/-- Settings come from the environment, the file at the base and the defaults, in this order;
arguments come before them. -/
theorem exists_hasPrecedence (d : Disk) (environment : Environment) :
    ∃ base, HasPrecedence d environment base := by
  obtain ⟨base, hbase⟩ := exists_isBase d
  refine ⟨base, ?_⟩
  constructor
  case isBase => exact fun l => ⟨fun h => h.unique hbase, fun h => h ▸ hbase⟩
  case settings => exact fun _ _ => current_ok_iff hbase
  case fault => exact fun _ => current_error_iff hbase
  case overridden =>
    intro d' entries entries' hbase' hentries hentries' hagree
    rw [current_eq hbase, current_eq hbase', readFile_ok_iff.mpr hentries,
      readFile_ok_iff.mpr hentries', ok_bind, ok_bind, configure, configure,
      decode_override_congr hagree]
  case specArgument =>
    intro a ha
    rw [specPath, given_of_ne ha]
  case spec =>
    intro a ha
    rw [specPath, given_of_mem ha]
    refine ⟨fun root s hs => ?_, fun f hf => ?_⟩
    · obtain ⟨rfl, -⟩ := (current_ok_iff hbase).mp hs
      dsimp only
      rw [hs, ok_bind]
      dsimp only
      rw [join_absolute]
      rfl
    · dsimp only
      rw [hf]
      rfl
  case terraformArgument =>
    intro a ha
    rw [terraformPath, given_of_ne ha]
  case terraform =>
    intro a ha
    rw [terraformPath, given_of_mem ha]
    refine ⟨fun root s hs => ?_, fun f hf => ?_⟩
    · obtain ⟨rfl, -⟩ := (current_ok_iff hbase).mp hs
      dsimp only
      rw [hs, ok_bind]
      rfl
    · dsimp only
      rw [hf]
      rfl
  case credentialsArgument => exact credentialsMode_some d environment
  case credentials =>
    refine ⟨fun root s hs => ?_, fun f hf => ?_⟩
    · rw [credentialsMode, hs]
      rfl
    · rw [credentialsMode, hf]
      rfl
  case drainTimeout =>
    rintro S host a rfl rfl
    refine ⟨fun t ht => ?_, fun f hf => ?_⟩
    · obtain ⟨⟨root, s⟩, hs, h⟩ := ok_of_bind ht
      obtain ⟨directory, hdirectory, h⟩ := ok_of_bind h
      cases h
      exact ⟨root, s, hs, rfl, hdirectory⟩
    · rw [Command.setup, hf]
      rfl

/-- A marked directory, whose file of settings has this text, as the current one. -/
def markedDisk (text : String) : Disk :=
  { entries := [([marker], .directory), ([marker, "config.yaml"], .file (Text.Utf8.encode text))] }

/-- The file is read before its values are overridden.  One that no number can be made of does
not matter then, but a date that there is not has no value at all. -/
theorem current_overridden_date :
    (current (markedDisk "drain_timeout: soon\n") [("SCOREFORM_DRAIN_TIMEOUT", "45")]).isOk = true ∧
      current (markedDisk "drain_timeout: 2020-13-45\n") [("SCOREFORM_DRAIN_TIMEOUT", "45")] =
        .error (.yaml (.calendar .month)) :=
  ⟨by decide +kernel, error_of_fault? (by decide +kernel)⟩

end Settings
end Groundplan
