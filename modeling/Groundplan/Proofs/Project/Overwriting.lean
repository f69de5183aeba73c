/-
Which files are said to be overwritten.

A file that is there is read before it is written, and a warning is given if it does not
read as the text that is written.  Reading replaces what is no text and unifies line ends,
so it is not the bytes that are compared: a file may change without a warning, if all that
changes is how its text is encoded.  For files that hold a text without carriage returns
there is a warning exactly if they change.

`Reports` is put together file by file, like `Delivers`.  A file is compared on a disk on
which those in front of it have been written already, which makes no difference because
they lead to other places.
-/
import Groundplan.Proofs.Project.Banner
import Groundplan.Proofs.Project.Regeneration

namespace Groundplan
namespace Project

open Hcl Storage Storage.Disk

/-! ## What is compared -/

/-- What a disk holds where a path leads on a later one, on which the way there has been
made. -/
def FoundIn (d d' : Disk) (path : Path) (bytes : List UInt8) : Prop :=
  ∃ l, d'.locate path = .ok l ∧ d.entry? l = some (.file bytes)

/-- A file was there and did not read as the text that is now written. -/
def Changes (root : Path) (d d' : Disk) (f : String × String) : Prop :=
  ∃ bytes, FoundIn d d' (target root f) bytes ∧ shown bytes ≠ f.2

/-- The warnings about overwritten files: one for each file that reads otherwise, and none
else.  Bytes that are no text or have carriage returns need not be told apart. -/
structure WarnsOfChanges (root : Path) (files : List (String × String)) (d d' : Disk)
    (records : List LogRecord) : Prop where
  found : ∀ f ∈ files, ∀ bytes, d.read (target root f) = .ok bytes → FoundIn d d' (target root f) bytes
  warned : ∀ f ∈ files, overwriteRecord (target root f) ∈ records ↔ Changes root d d' f
  once : ∀ path, records.count (overwriteRecord path) ≤ 1
  named : ∀ path, overwriteRecord path ∈ records → ∃ f ∈ files, path.toText = (target root f).toText
  founded : ∀ f ∈ files, IsReturnFree f.2.toList → overwriteRecord (target root f) ∈ records →
    ∃ bytes, FoundIn d d' (target root f) bytes ∧ bytes ≠ Text.Utf8.encode f.2
  exact : ∀ f ∈ files, ∀ text, IsReturnFree text.toList →
    FoundIn d d' (target root f) (Text.Utf8.encode text) →
      (overwriteRecord (target root f) ∈ records ↔ Text.Utf8.encode text ≠ Text.Utf8.encode f.2)

theorem encode_ne_of_ne {s t : String} (h : s ≠ t) : Text.Utf8.encode s ≠ Text.Utf8.encode t := by
  intro heq
  have hread := congrArg Text.Utf8.decode heq
  rw [Text.Utf8.decode_encode, Text.Utf8.decode_encode] at hread
  exact h (Except.ok.inj hread)

/-! ## Places -/

section
variable {d d₁ d₂ : Disk} {path : Path} {bytes : List UInt8} {l : Location}

theorem foundIn_of_locate (h : d₁.locate path = .ok l) :
    FoundIn d d₁ path bytes ↔ d.entry? l = some (.file bytes) := by
  constructor
  · rintro ⟨k, hk, hfile⟩
    rw [h] at hk
    rwa [Except.ok.inj hk]
  · exact fun hfile => ⟨l, h, hfile⟩

theorem foundIn_keeps (h : d₁.locate path = .ok l) (hkeep : KeepsDirectories d₁ d₂) :
    FoundIn d d₂ path bytes ↔ FoundIn d d₁ path bytes := by
  rw [foundIn_of_locate h, foundIn_of_locate (hkeep.locate h)]

/-- A comparison on the disk as it is. -/
theorem differs_iff {content : String} {changed : Bool} (h : differs d path content = .ok changed) :
    changed = true ↔ ∃ bytes, FoundIn d d path bytes ∧ shown bytes ≠ content := by
  cases hl : d.locate path with
  | error e =>
    have hnone : ∀ bytes, ¬FoundIn d d path bytes := by
      rintro bytes ⟨l, hl', -⟩
      rw [hl] at hl'
      cases hl'
    have hunchanged : differs d path content = .ok false := by
      simp [differs, isPresent, stat?, hl]
    rw [hunchanged] at h
    cases h
    simp [hnone]
  | ok l =>
    simp only [foundIn_of_locate hl]
    cases hentry : d.entry? l with
    | none =>
      have hunchanged : differs d path content = .ok false := by
        simp [differs, isPresent, stat?, hl, hentry]
      rw [hunchanged] at h
      cases h
      simp
    | some entry =>
      have hpresent : d.isPresent path = true := by
        rw [isPresent, stat?, hl]
        simp only [hentry, Option.isSome_some]
      rw [differs, if_pos hpresent, readLossyText] at h
      cases entry with
      | directory =>
        have hread : d.read path = .error .isDirectory := by
          rw [Disk.read, hl, ok_bind, hentry]
          rfl
        rw [hread] at h
        cases h
      | file bytes =>
        rw [read_of_entry hl hentry, ok_bind] at h
        have hchanged : (shown bytes != content) = changed := Except.ok.inj h
        simp [← hchanged]

end

/-! ## The warnings of a run -/

/-- The warnings about overwritten files, in the order of the files. -/
def Reports (root : Path) (files : List (String × String)) (d d' : Disk)
    (records : List LogRecord) : Prop :=
  ∃ changed : List (String × String), changed.Sublist files ∧
    (∀ f ∈ files, f ∈ changed ↔ Changes root d d' f) ∧
      records = changed.map fun f => overwriteRecord (target root f)

theorem reports_writeFile {root path : Path} {f : String × String} (hf : (Path.parse f.1).IsInner)
    {d : Disk} (h : (writeFile d (target root f) f.2).result = .ok path) :
    Reports root [f] d (writeFile d (target root f) f.2).disk
      (writeFile d (target root f) f.2).records := by
  have hmade := delivers_of_grows hf (attempts_makeDirectories d (target root f).parent).grows
  rw [writeFile] at h ⊢
  generalize d.makeDirectories (target root f).parent = outcome at h hmade ⊢
  obtain ⟨d₁, made⟩ := outcome
  cases made with
  | error failure => cases h
  | ok made =>
    dsimp only at h hmade ⊢
    cases hdiffers : differs d₁ (target root f) f.2 with
    | error e =>
      rw [hdiffers] at h
      cases h
    | ok changed =>
      rw [hdiffers] at h
      dsimp only at h ⊢
      cases hwrite : d₁.writeText (target root f) f.2 with
      | error e =>
        rw [hwrite] at h
        cases h
      | ok d₂ =>
        obtain ⟨-, l, hl, -⟩ := wrote_of_writeText hwrite
        have hchanges : changed = true ↔ Changes root d d₂ f := by
          rw [differs_iff hdiffers, Changes]
          refine exists_congr fun bytes => and_congr_left' ?_
          rw [foundIn_keeps hl (keepsDirectories_of_writeText hwrite), foundIn_of_locate hl,
            foundIn_of_locate hl]
          exact hmade.others (fun g hg => absurd hg List.not_mem_nil) bytes
        refine ⟨if changed then [f] else [], ?_, ?_, ?_⟩
        · split
          · exact .refl [f]
          · exact List.nil_sublist [f]
        · rw [List.forall_mem_singleton, ← hchanges]
          cases changed with
          | true => simp
          | false => simp
        · cases changed with
          | true => rfl
          | false => rfl

section
variable {root : Path} {fs gs : List (String × String)} {d d₁ d₂ : Disk} {r₁ r₂ : List LogRecord}

/-- Files in front have been written when the others are compared, and stay as they are when
those are written. -/
theorem Reports.append (h : Reports root fs d d₁ r₁) (h' : Reports root gs d₁ d₂ r₂)
    (hfirst : Delivers root fs d d₁) (hrest : Delivers root gs d₁ d₂) (hapart : AreApart (fs ++ gs)) :
    Reports root (fs ++ gs) d d₂ (r₁ ++ r₂) := by
  obtain ⟨changed₁, hsub₁, hchanged₁, rfl⟩ := h
  obtain ⟨changed₂, hsub₂, hchanged₂, rfl⟩ := h'
  refine ⟨changed₁ ++ changed₂, hsub₁.append hsub₂, fun f hf => ?_, List.map_append.symm⟩
  rcases List.mem_append.mp hf with hf | hf
  · have hnot : f ∉ changed₂ := fun hmem => hapart.parse_ne f hf f (hsub₂.subset hmem) rfl
    obtain ⟨l, hl, -⟩ := hfirst.holds f hf
    have hsame : Changes root d d₂ f ↔ Changes root d d₁ f :=
      exists_congr fun bytes => and_congr_left' (foundIn_keeps hl hrest.keeps)
    rw [List.mem_append, or_iff_left hnot, hchanged₁ f hf, hsame]
  · have hnot : f ∉ changed₁ := fun hmem => hapart.parse_ne f (hsub₁.subset hmem) f hf rfl
    obtain ⟨l, hl, -⟩ := hrest.holds f hf
    have hsame : Changes root d d₂ f ↔ Changes root d₁ d₂ f := by
      refine exists_congr fun bytes => and_congr_left' ?_
      rw [foundIn_of_locate hl, foundIn_of_locate hl]
      refine (hfirst.others (fun g hg hgl => ?_) bytes).symm
      have hparse := join_inj_of_locate (hapart.inner g (List.mem_append_left gs hg))
        (hapart.inner f (List.mem_append_right fs hf)) (hrest.keeps.locate hgl) hl
      exact hapart.parse_ne g hg f hf hparse
    rw [List.mem_append, or_iff_right hnot, hchanged₂ f hf, hsame]

end

theorem reports_writeFiles {root : Path} {files : List (String × String)} (hapart : AreApart files)
    {d : Disk} {paths : List Path} (h : (writeFiles d root files).result = .ok paths) :
    Reports root files d (writeFiles d root files).disk (writeFiles d root files).records := by
  induction files generalizing d paths with
  | nil => exact ⟨[], .refl [], List.forall_mem_nil _, rfl⟩
  | cons f files ih =>
    have hf := hapart.inner f List.mem_cons_self
    have htail := hapart.sublist (List.sublist_cons_self f files)
    rw [writeFiles_cons] at h ⊢
    rw [show root.join (Path.parse f.1) = target root f from rfl] at h ⊢
    rcases delivers_writeFile root hf d with ⟨hresult, hfirst⟩ | ⟨e, hresult, -⟩
    · rw [hresult] at h ⊢
      dsimp only at h ⊢
      obtain ⟨rest, hrest, -⟩ := ok_of_exceptMap h
      have hmore := delivers_writeFiles root htail (writeFile d (target root f) f.2).disk
      rcases hmore with ⟨-, hmore⟩ | ⟨e, -, -, -, hfailed, -⟩
      · exact (reports_writeFile hf hresult).append (ih htail hrest) hfirst hmore hapart
      · rw [hrest] at hfailed
        cases hfailed
    · rw [hresult] at h
      cases h

/-! ## The names in the warnings -/

/-- What stands in front of the paths below a directory. -/
def pathFront (root : Path) : String :=
  root.anchor ++ if root.parts = [] then "" else "/".intercalate root.parts ++ "/"

theorem toText_target (root : Path) {f : String × String} (h : Path.Spells f.1) :
    (target root f).toText = pathFront root ++ f.1 := by
  have hnonempty : f.1 ≠ "" := by
    intro hempty
    have hparts := h.inner.parts
    rw [hempty] at hparts
    exact hparts (by decide)
  have htext : root.anchor ++ "/".intercalate (root.parts ++ (Path.parse f.1).parts) =
      pathFront root ++ f.1 := by
    rw [pathFront, String.append_assoc]
    congr 1
    split
    · rename_i hroot
      rw [hroot, List.nil_append, h.text]
      rfl
    · rename_i hroot
      rw [String.intercalate_append_of_ne_nil hroot h.inner.parts, h.text]
  rw [target, Path.join_of_isInner root h.inner, Path.toText]
  dsimp only
  rw [htext, if_neg]
  simp [hnonempty]

theorem toText_of_overwriteRecord {p q : Path} (h : overwriteRecord p = overwriteRecord q) :
    p.toText = q.toText := by
  have htext : "Overwriting " ++ p.toText ++ "; changes made since the last generate are discarded" =
      "Overwriting " ++ q.toText ++ "; changes made since the last generate are discarded" :=
    (LogRecord.mk.inj h).2
  exact (String.append_right_inj _).mp ((String.append_left_inj _).mp htext)

/-- No two files of a project are named alike. -/
theorem eq_of_overwriteRecord {root : Path} {files : List (String × String)} (hapart : AreApart files)
    {f g : String × String} (hf : f ∈ files) (hg : g ∈ files)
    (h : overwriteRecord (target root f) = overwriteRecord (target root g)) : f = g := by
  have htext := toText_of_overwriteRecord h
  rw [toText_target root (hapart.spelled f hf), toText_target root (hapart.spelled g hg)] at htext
  exact List.inj_on_of_nodup_map hapart.distinct hf hg ((String.append_right_inj _).mp htext)

/-! ## Writing a project -/

theorem count_overwriteRecord_write {d : Disk} {root : Path} {p : Project} {paths : List Path}
    (h : (write d root p).result = .ok paths) (path : Path) :
    (write d root p).records.count (overwriteRecord path) =
      (writeFiles d root p.files).records.count (overwriteRecord path) := by
  rw [result_write] at h
  have hdebug : ∀ message, LogRecord.debug message ≠ overwriteRecord path := fun _ h => nomatch h
  rw [write]
  dsimp only
  rw [h]
  dsimp only
  rw [List.count_append, List.count_cons_of_ne (hdebug _),
    List.count_eq_zero_of_not_mem (overwriteRecord_not_mem_staleRecords path), Nat.add_zero]

theorem Reports.mem_iff {root : Path} {files : List (String × String)} {d d' : Disk}
    {records : List LogRecord} (hapart : AreApart files) (h : Reports root files d d' records)
    {f : String × String} (hf : f ∈ files) :
    overwriteRecord (target root f) ∈ records ↔ Changes root d d' f := by
  obtain ⟨changed, hsub, hchanged, rfl⟩ := h
  rw [← hchanged f hf, List.mem_map]
  constructor
  · rintro ⟨g, hg, heq⟩
    rwa [← eq_of_overwriteRecord hapart (hsub.subset hg) hf heq]
  · exact fun hmem => ⟨f, hmem, rfl⟩

theorem Reports.nodup {root : Path} {files : List (String × String)} {d d' : Disk}
    {records : List LogRecord} (hapart : AreApart files) (h : Reports root files d d' records) :
    records.Nodup := by
  obtain ⟨changed, hsub, -, rfl⟩ := h
  have hdistinct : changed.Nodup := (hapart.distinct.of_map _).sublist hsub
  exact hdistinct.map_on fun f hf g hg heq =>
    eq_of_overwriteRecord hapart (hsub.subset hf) (hsub.subset hg) heq

theorem warnsOfChanges_write {d : Disk} {root : Path} {p : Project} {paths : List Path}
    (hapart : AreApart p.files) (h : (write d root p).result = .ok paths) :
    WarnsOfChanges root p.files d (write d root p).disk (write d root p).records := by
  have hkeep : KeepsDirectories d (write d root p).disk := by
    rw [disk_write]
    exact (changesOnWay_writeFiles root p.files d).1
  have hreports : Reports root p.files d (write d root p).disk (writeFiles d root p.files).records := by
    rw [disk_write]
    rw [result_write] at h
    exact reports_writeFiles hapart h
  have hmem : ∀ path, overwriteRecord path ∈ (write d root p).records ↔
      overwriteRecord path ∈ (writeFiles d root p.files).records := by
    intro path
    rw [← List.count_pos_iff, count_overwriteRecord_write h, List.count_pos_iff]
  have hwarned : ∀ f ∈ p.files, overwriteRecord (target root f) ∈ (write d root p).records ↔
      Changes root d (write d root p).disk f := by
    intro f hf
    rw [hmem, hreports.mem_iff hapart hf]
  refine ⟨?found, hwarned, ?once, ?named, ?founded, ?exact⟩
  case found =>
    intro f _ bytes hread
    obtain ⟨l, hl, hfile⟩ := entry_of_read hread
    exact ⟨l, hkeep.locate hl, hfile⟩
  case once =>
    intro path
    rw [count_overwriteRecord_write h]
    exact List.nodup_iff_count_le_one.mp (hreports.nodup hapart) _
  case named =>
    intro path hpath
    rw [hmem] at hpath
    obtain ⟨changed, hsub, -, hrecords⟩ := hreports
    rw [hrecords, List.mem_map] at hpath
    obtain ⟨f, hf, heq⟩ := hpath
    exact ⟨f, hsub.subset hf, (toText_of_overwriteRecord heq).symm⟩
  case founded =>
    intro f hf hfree hrecord
    obtain ⟨bytes, hfound, hshown⟩ := (hwarned f hf).mp hrecord
    refine ⟨bytes, hfound, ?_⟩
    rintro rfl
    exact hshown (shown_encode_eq_iff.mpr hfree)
  case exact =>
    intro f hf text hfree hfound
    rw [hwarned f hf]
    constructor
    · rintro ⟨bytes, ⟨l, hl, hfile⟩, hshown⟩ hencode
      rw [(foundIn_of_locate hl).mp hfound] at hfile
      cases hfile
      rw [shown_encode_eq_iff.mpr hfree] at hshown
      exact encode_ne_of_ne hshown hencode
    · intro hencode
      refine ⟨_, hfound, ?_⟩
      rw [shown_encode_eq_iff.mpr hfree]
      rintro rfl
      exact hencode rfl

/-! ## A copy with other line ends -/

/-- The text as an editor may save it that ends lines in another way. -/
def withReturns (s : String) : String :=
  String.ofList (s.toList.flatMap fun c => if c = '\n' then ['\r', '\n'] else [c])

theorem withReturns_ne {s : String} (hfree : IsReturnFree s.toList) (hline : '\n' ∈ s.toList) :
    withReturns s ≠ s := by
  intro heq
  apply hfree
  rw [← heq, withReturns, String.toList_ofList]
  exact List.mem_flatMap.mpr ⟨'\n', hline, by simp⟩

/-- Unifying line ends undoes this. -/
theorem shown_withReturns {s : String} (h : IsReturnFree s.toList) :
    shown (Text.Utf8.encode (withReturns s)) = s := by
  have hchars : ∀ cs, IsReturnFree cs → Text.unifyNewlines
      (cs.flatMap fun c => if c = '\n' then ['\r', '\n'] else [c]) = cs := by
    intro cs hcs
    induction cs with
    | nil => rfl
    | cons c cs ih =>
      rw [IsReturnFree, List.mem_cons, not_or] at hcs
      rw [List.flatMap_cons]
      by_cases hc : c = '\n'
      · rw [if_pos hc, List.cons_append, List.singleton_append, Text.unifyNewlines, ih hcs.2, hc]
      · rw [if_neg hc, Text.unifyNewlines_append, ih hcs.2, List.singleton_append]
        rw [List.mem_singleton]
        exact hcs.1
  rw [shown_encode, withReturns, String.toList_ofList, hchars _ h, String.ofList_toList]

/-- The first file of a project with nothing in its specification. -/
def providerText : String :=
  bannerText "score-app" ++
    ("provider \"aws\" \x7b\n  region = \"us-west-2\"\n\x7d\n\n" ++
      "terraform \x7b\n  required_providers \x7b\n    aws = \x7b\n" ++
        "      source  = \"hashicorp/aws\"\n      version = \"~> 5.79.0\"\n" ++
          "    \x7d\n  \x7d\n\x7d\n")

theorem isTextOf_providerText : IsTextOf "score-app" (providerDocument {}) providerText := by
  have hregion : itemLines (.block "provider" ["aws"] [set "region" (.text "us-west-2")]) =
      .ok ["provider \"aws\" \x7b", "  region = \"us-west-2\"", "\x7d"] := by
    have hattribute : renderAttributes (0 + 1) [⟨"region", .text "us-west-2"⟩] =
        .ok ["  region = \"us-west-2\""] := by
      decide +kernel
    have hhead : indent 0 ++ blockHead "provider" ["aws"] ++ " \x7b" = "provider \"aws\" \x7b" := by
      decide +kernel
    simp only [Hcl.set, itemLines, blockLines, bodyLines, needsGap, Bool.false_eq_true, if_false,
      List.nil_append, hattribute, ok_bind, hhead]
    rfl
  have hversions : itemLines (nested "terraform" [nested "required_providers" [set "aws" (.object
      [("source", .text ("hashicorp/" ++ "aws")), ("version", .text providerVersion)])]]) =
      .ok ["terraform \x7b", "  required_providers \x7b",
        "    aws = \x7b\n      source  = \"hashicorp/aws\"\n      version = \"~> 5.79.0\"\n    \x7d",
        "  \x7d", "\x7d"] := by
    have hattribute : renderAttributes (0 + 1 + 1) [⟨"aws", .object
        [("source", .text ("hashicorp/" ++ "aws")), ("version", .text providerVersion)]⟩] =
        .ok ["    aws = \x7b\n      source  = \"hashicorp/aws\"\n      version = \"~> 5.79.0\"\n    \x7d"] := by
      decide +kernel
    simp only [nested, Hcl.set, itemLines, blockLines, bodyLines, needsGap, Bool.false_eq_true,
      if_false, List.nil_append, hattribute, ok_bind]
    decide +kernel
  rw [IsTextOf, Document.render, withBanner, documentLines, itemLines_banner, documentLines,
    providerDocument, documentLines, documentLines, hregion, hversions]
  decide +kernel

/-- A copy of the first file that has been saved with other line ends. -/
def resaved : List UInt8 := Text.Utf8.encode (withReturns providerText)

/-- The first file with given bytes. -/
def touched (bytes : List UInt8) : Disk where
  entries := [(["provider.tf"], .file bytes)]

theorem exists_written_touched (bytes : List UInt8) : ∃ p paths,
    Spec.ofDatum "<spec>" (.mapping []) = .ok {} ∧ (compile .builtIn {} {}).result = .ok p ∧
      ("provider.tf", providerText) ∈ p.files ∧ (write (touched bytes) ⟨"", []⟩ p).result = .ok paths := by
  have hcheck : check {} = check hostile := rfl
  obtain ⟨p, hp⟩ : ∃ p, (compile .builtIn {} {}).result = .ok p :=
    exists_compiled (hcheck.trans check_hostile) (fun h => absurd h (by decide)) (by decide) (by decide)
  obtain ⟨s, hs⟩ := compiled_of_builtIn hp
  have hname : p.name = "score-app" := hs.name
  have hprovider : p.root.provider = providerText := by
    have htext := hs.provider
    rw [hname, IsTextOf, isTextOf_providerText] at htext
    exact (Except.ok.inj htext).symm
  have hmodules : p.modules = [] := List.forall₂_nil_left_iff.mp hs.modules
  refine ⟨p, [⟨"", ["provider.tf"]⟩, ⟨"", ["variables.tf"]⟩, ⟨"", ["main.tf"]⟩], rfl, hp, ?_, ?_⟩
  · rw [← hprovider]
    exact List.mem_append_left _ List.mem_cons_self
  · rw [result_write, files_of_no_modules hmodules]
    rfl

theorem read_touched (bytes : List UInt8) :
    (touched bytes).read ⟨"", ["provider.tf"]⟩ = .ok bytes := rfl

theorem target_provider (text : String) :
    target ⟨"", []⟩ ("provider.tf", text) = ⟨"", ["provider.tf"]⟩ := by
  have hparse : Path.parse "provider.tf" = ⟨"", ["provider.tf"]⟩ := by decide +kernel
  rw [target, hparse]
  rfl

theorem newline_mem_providerText : '\n' ∈ providerText.toList := by
  unfold providerText bannerText
  rw [String.toList_append, String.toList_append]
  exact List.mem_append_left _ (List.mem_append_right _ (by decide))

/-! ## Projects -/

/-- Writing a project gives a warning for each file that does not read as it is written, and
for no other. -/
theorem warnsOfChanges_of_written {l : Module.Library} {spec : Spec} {options : Options}
    {p : Project} {d : Disk} {root : Path} {paths : List Path} (loaded : spec.IsLoaded)
    (compiled : (compile l spec options).result = .ok p)
    (written : (write d root p).result = .ok paths) :
    WarnsOfChanges root p.files d (write d root p).disk (write d root p).records := by
  obtain ⟨s, hs⟩ := compiled_of_compile compiled
  exact warnsOfChanges_write (areApart_of_compiled loaded.named hs) written

/-- An emptied file is overwritten with a warning. -/
theorem warnsOfChanges_of_written_emptied : ∃ p paths,
    Spec.ofDatum "<spec>" (.mapping []) = .ok {} ∧ (compile .builtIn {} {}).result = .ok p ∧
      (write (touched []) ⟨"", []⟩ p).result = .ok paths ∧
      WarnsOfChanges ⟨"", []⟩ p.files (touched []) (write (touched []) ⟨"", []⟩ p).disk
        (write (touched []) ⟨"", []⟩ p).records ∧
      overwriteRecord ⟨"", ["provider.tf"]⟩ ∈ (write (touched []) ⟨"", []⟩ p).records := by
  obtain ⟨p, paths, hload, hp, hmem, hpaths⟩ := exists_written_touched []
  have hwarns := warnsOfChanges_of_written (.datum hload) hp hpaths
  have hread := read_touched []
  rw [← target_provider providerText] at hread ⊢
  refine ⟨p, paths, hload, hp, hpaths, hwarns, (hwarns.warned _ hmem).mpr ⟨[], ?_, fun hshown => ?_⟩⟩
  · exact hwarns.found _ hmem _ hread
  · have hnone : shown [] = "" := by simp [shown, Text.Utf8.decodeLossy, Text.unifyNewlines]
    have hline := newline_mem_providerText
    rw [← show shown [] = providerText from hshown, hnone] at hline
    exact absurd hline (by decide)

/-- Other line ends are overwritten in silence: the bytes differ, and what they show does
not. -/
theorem silent_about_line_ends : ∃ p paths, Spec.ofDatum "<spec>" (.mapping []) = .ok {} ∧
    (compile .builtIn {} {}).result = .ok p ∧
      (write (touched resaved) ⟨"", []⟩ p).result = .ok paths ∧ ("provider.tf", providerText) ∈ p.files ∧
      (touched resaved).read ⟨"", ["provider.tf"]⟩ = .ok resaved ∧
      (write (touched resaved) ⟨"", []⟩ p).disk.read ⟨"", ["provider.tf"]⟩ =
        .ok (Text.Utf8.encode providerText) ∧
      resaved ≠ Text.Utf8.encode providerText ∧
      overwriteRecord ⟨"", ["provider.tf"]⟩ ∉ (write (touched resaved) ⟨"", []⟩ p).records := by
  obtain ⟨p, paths, hload, hp, hmem, hpaths⟩ := exists_written_touched resaved
  have hnamed : ({} : Spec).Named := (Spec.IsLoaded.datum hload).named
  obtain ⟨s, hs⟩ := compiled_of_builtIn hp
  have hapart := areApart_of_compiled hnamed hs
  have hbrings : Brings (holds IsReturnFree) {} :=
    ⟨by decide +kernel, fun w hw => absurd hw List.not_mem_nil⟩
  have hfree : IsReturnFree providerText.toList :=
    isReturnFree_of_compiled hnamed hbrings hs ("provider.tf", providerText) hmem
  have hread := read_touched resaved
  have hshown : shown resaved = providerText := shown_withReturns hfree
  have hne : resaved ≠ Text.Utf8.encode providerText :=
    encode_ne_of_ne (withReturns_ne hfree newline_mem_providerText)
  -- From here on neither what the file held nor what is written matters.
  generalize resaved = bytes at hpaths hread hshown hne ⊢
  generalize providerText = text at hmem hshown hne ⊢
  have htarget := target_provider text
  have hwarns := warnsOfChanges_write hapart hpaths
  have hwritten := ((writesInOrder_write ⟨"", []⟩ hapart _).succeeded paths hpaths).2.holds _ hmem
  rw [htarget] at hwritten
  refine ⟨p, paths, hload, hp, hpaths, hmem, hread, hwritten, hne, ?_⟩
  rw [← htarget, hwarns.warned _ hmem]
  rintro ⟨found, ⟨l, hl, hfile⟩, hdiffers⟩
  have hfound := hwarns.found _ hmem _ (htarget ▸ hread)
  rw [(foundIn_of_locate hl).mp hfound] at hfile
  cases hfile
  exact hdiffers hshown

end Project
end Groundplan
