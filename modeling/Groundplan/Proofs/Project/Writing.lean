/-
Writing a project to a disk.

A file is written after the directories on the way to it were made, and either step can
fail because of what is on the disk already.  What holds of a disk after some of the files
were written, `Delivers`, is put together file by file: for that the paths must lead to
different places, and since the types of workloads are names they do.  A failing file
delivers nothing, so a run that stops there has delivered the files in front of it.
-/
import Groundplan.Project.Write
import Groundplan.Proofs.Project.Integrity
import Groundplan.Proofs.Spec.Source
import Groundplan.Proofs.Storage.Inner

namespace Groundplan
namespace Project

open Storage Storage.Disk

/-- Where a file of a project is written. -/
def target (root : Path) (file : String × String) : Path := root.join (.parse file.1)

/-- The files hold their texts.  Every other file, and every directory, is as it was; new
directories stand below the root or on the way to it. -/
structure IsWritten (root : Path) (files : List (String × String)) (d d' : Disk) : Prop where
  cwd : d'.cwd = d.cwd
  holds : ∀ f ∈ files, d'.read (target root f) = .ok (Text.Utf8.encode f.2)
  others : ∀ l, (∀ f ∈ files, d'.locate (target root f) ≠ .ok l) →
    ∀ bytes, d'.entry? l = some (.file bytes) ↔ d.entry? l = some (.file bytes)
  kept : ∀ l, (d.entry? l).isSome → (d'.entry? l).isSome
  directories : ∀ l, d.entry? l = some .directory → d'.entry? l = some .directory
  outside : ∀ l, ¬IsIn d' root l → d'.entry? l = d.entry? l ∨
    IsAbove d' root l ∧ d.entry? l = none ∧ d'.entry? l = some .directory

/-- Files are written in order up to the first one that cannot be, which is left as it
was, like all behind it. -/
structure WritesInOrder (root : Path) (files : List (String × String)) (d : Disk)
    (w : Writing (List Path)) : Prop where
  succeeded : ∀ paths, w.result = .ok paths →
    paths = files.map (target root) ∧ IsWritten root files d w.disk
  failed : ∀ e, w.result = .error e → ∃ done failing rest, files = done ++ failing :: rest ∧
    IsWritten root done d w.disk ∧
      ∀ f ∈ failing :: rest, ∀ l, w.disk.locate (target root f) = .ok l →
        ∀ bytes, w.disk.entry? l = some (.file bytes) ↔ d.entry? l = some (.file bytes)

/-! ## What was delivered -/

/-- As `IsWritten`, in terms of locations. -/
structure Delivers (root : Path) (files : List (String × String)) (d d' : Disk) : Prop where
  keeps : KeepsDirectories d d'
  holds : ∀ f ∈ files, ∃ l, d'.locate (target root f) = .ok l ∧
    d'.entry? l = some (.file (Text.Utf8.encode f.2))
  entry : ∀ l, d'.entry? l = d.entry? l ∨ (∃ f ∈ files, d'.locate (target root f) = .ok l) ∨
    (IsIn d' root l ∨ IsAbove d' root l) ∧ d.entry? l = none ∧ d'.entry? l = some .directory

namespace Delivers

variable {root : Path} {fs gs : List (String × String)} {d d₁ d₂ : Disk}

theorem refl (root : Path) (d : Disk) : Delivers root [] d d :=
  ⟨.refl d, fun _ hf => absurd hf List.not_mem_nil, fun _ => .inl rfl⟩

theorem file_at (h : Delivers root fs d d₁) {f : String × String} (hf : f ∈ fs) {l : Location}
    (hl : d₁.locate (target root f) = .ok l) :
    d₁.entry? l = some (.file (Text.Utf8.encode f.2)) := by
  obtain ⟨k, hk, hfile⟩ := h.holds f hf
  rw [hl] at hk
  rw [Except.ok.inj hk]
  exact hfile

/-- Whatever is delivered later stays clear of what is there. -/
theorem append (h : Delivers root fs d d₁) (h' : Delivers root gs d₁ d₂)
    (hinner : ∀ f ∈ fs ++ gs, (Path.parse f.1).IsInner)
    (hdistinct : ∀ f ∈ fs, ∀ g ∈ gs, Path.parse f.1 ≠ Path.parse g.1) :
    Delivers root (fs ++ gs) d d₂ := by
  have hfs : ∀ f ∈ fs, ∀ l, d₁.locate (target root f) = .ok l →
      d₂.locate (target root f) = .ok l ∧ d₂.entry? l = some (.file (Text.Utf8.encode f.2)) := by
    intro f hf l hl
    have hl₂ := h'.keeps.locate hl
    have hfile := h.file_at hf hl
    refine ⟨hl₂, ?_⟩
    rcases h'.entry l with hsame | ⟨g, hg, hgl⟩ | ⟨-, hnone, -⟩
    · rw [hsame, hfile]
    · exact absurd (join_inj_of_locate (hinner f (List.mem_append_left _ hf))
        (hinner g (List.mem_append_right _ hg)) hl₂ hgl) (hdistinct f hf g hg)
    · rw [hfile] at hnone
      cases hnone
  refine ⟨h.keeps.trans h'.keeps, fun f hf => ?_, fun l => ?_⟩
  · rcases List.mem_append.mp hf with hf | hf
    · obtain ⟨l, hl, -⟩ := h.holds f hf
      exact ⟨l, hfs f hf l hl⟩
    · exact h'.holds f hf
  · rcases h.entry l with hsame | ⟨f, hf, hl⟩ | ⟨hin, hnone, hmade⟩
    · rw [← hsame]
      refine (h'.entry l).imp_right (Or.imp_left fun ⟨g, hg, hl⟩ => ?_)
      exact ⟨g, List.mem_append_right _ hg, hl⟩
    · exact .inr (.inl ⟨f, List.mem_append_left _ hf, (hfs f hf l hl).1⟩)
    · exact .inr (.inr ⟨hin.imp (·.mono h'.keeps) (·.mono h'.keeps rfl (List.prefix_refl _)), hnone,
        h'.keeps.directory l hmade⟩)

/-- A location to which no file was delivered holds the file that it held. -/
theorem others (h : Delivers root fs d d₁) {l : Location}
    (hl : ∀ f ∈ fs, d₁.locate (target root f) ≠ .ok l) (bytes : List UInt8) :
    d₁.entry? l = some (.file bytes) ↔ d.entry? l = some (.file bytes) := by
  rcases h.entry l with hsame | ⟨f, hf, hfl⟩ | ⟨-, hnone, hmade⟩
  · rw [hsame]
  · exact absurd hfl (hl f hf)
  · rw [hnone, hmade]
    simp

theorem isWritten (h : Delivers root fs d d₁) (hinner : ∀ f ∈ fs, (Path.parse f.1).IsInner) :
    IsWritten root fs d d₁ where
  cwd := h.keeps.cwd
  holds := by
    intro f hf
    obtain ⟨l, hl, hfile⟩ := h.holds f hf
    exact read_of_entry hl hfile
  others := fun l hl => h.others hl
  kept := by
    intro l hl
    rcases h.entry l with hsame | ⟨f, hf, hfl⟩ | ⟨-, -, hmade⟩
    · rw [hsame]
      exact hl
    · rw [h.file_at hf hfl]
      rfl
    · rw [hmade]
      rfl
  directories := h.keeps.directory
  outside := by
    intro l hout
    rcases h.entry l with hsame | ⟨f, hf, hfl⟩ | ⟨hin | habove, hnone, hmade⟩
    · exact .inl hsame
    · exact absurd (isIn_of_locate_join (hinner f hf) hfl) hout
    · exact absurd hin hout
    · exact .inr ⟨habove, hnone, hmade⟩

end Delivers

/-! ## One file -/

theorem delivers_of_grows {root : Path} {f : String × String} {d d₁ : Disk}
    (hf : (Path.parse f.1).IsInner)
    (h : Grows (IsAbove d₁ (target root f).parent) d d₁) : Delivers root [] d d₁ := by
  refine ⟨h.keepsDirectories, fun _ hf => absurd hf List.not_mem_nil, fun l => ?_⟩
  exact (h.entry l).imp_right fun ⟨habove, hmade⟩ => .inr ⟨isIn_or_isAbove hf habove, hmade⟩

theorem delivers_of_writeText {root : Path} {f : String × String} {d d₁ : Disk}
    (h : d.writeText (target root f) f.2 = .ok d₁) : Delivers root [f] d d₁ := by
  obtain ⟨-, l, hl, hfile, hothers⟩ := wrote_of_writeText h
  have hkeep := keepsDirectories_of_writeText h
  refine ⟨hkeep, fun g hg => ?_, fun k => ?_⟩
  · rw [List.mem_singleton.mp hg]
    exact ⟨l, hkeep.locate hl, hfile⟩
  · by_cases hkl : k = l
    · subst hkl
      exact .inr (.inl ⟨f, List.mem_singleton_self f, hkeep.locate hl⟩)
    · exact .inl (hothers k hkl)

/-- What is left when a file was written, and what when it could not be. -/
theorem delivers_writeFile (root : Path) {f : String × String} (hf : (Path.parse f.1).IsInner)
    (d : Disk) :
    ((writeFile d (target root f) f.2).result = .ok (target root f) ∧
        Delivers root [f] d (writeFile d (target root f) f.2).disk) ∨
      ∃ e, (writeFile d (target root f) f.2).result = .error e ∧
        Delivers root [] d (writeFile d (target root f) f.2).disk := by
  have hmade := delivers_of_grows hf (attempts_makeDirectories d (target root f).parent).grows
  rw [writeFile]
  generalize d.makeDirectories (target root f).parent = outcome at hmade ⊢
  obtain ⟨d₁, made⟩ := outcome
  cases made with
  | error failure => exact .inr ⟨failure, rfl, hmade⟩
  | ok made =>
    dsimp only
    cases differs d₁ (target root f) f.2 with
    | error e => exact .inr ⟨_, rfl, hmade⟩
    | ok changed =>
      dsimp only
      cases hwrite : d₁.writeText (target root f) f.2 with
      | error e => exact .inr ⟨_, rfl, hmade⟩
      | ok d₂ =>
        have hall := hmade.append (delivers_of_writeText hwrite)
          (fun g hg => by rwa [List.mem_singleton.mp hg])
          (fun g hg => absurd hg List.not_mem_nil)
        exact .inl ⟨rfl, hall⟩

/-! ## All files -/

/-- Paths that lead to different places below a directory. -/
structure AreApart (files : List (String × String)) : Prop where
  spelled : ∀ f ∈ files, Path.Spells f.1
  distinct : (files.map Prod.fst).Nodup

theorem AreApart.parse_ne {fs gs : List (String × String)} (h : AreApart (fs ++ gs)) :
    ∀ f ∈ fs, ∀ g ∈ gs, Path.parse f.1 ≠ Path.parse g.1 := by
  intro f hf g hg hparse
  have hname := (h.spelled f (List.mem_append_left gs hf)).parse_inj
    (h.spelled g (List.mem_append_right fs hg)) hparse
  have hdistinct := h.distinct
  rw [List.map_append, List.nodup_append] at hdistinct
  exact hdistinct.2.2 _ (List.mem_map_of_mem hf) _ (List.mem_map_of_mem hg) hname

theorem AreApart.inner {files : List (String × String)} (h : AreApart files) :
    ∀ f ∈ files, (Path.parse f.1).IsInner := fun f hf => (h.spelled f hf).inner

theorem AreApart.sublist {fs files : List (String × String)} (h : AreApart files)
    (hsub : fs.Sublist files) : AreApart fs :=
  ⟨fun f hf => h.spelled f (hsub.subset hf), h.distinct.sublist (hsub.map _)⟩

theorem delivers_writeFiles (root : Path) {files : List (String × String)} (h : AreApart files)
    (d : Disk) :
    ((writeFiles d root files).result = .ok (files.map (target root)) ∧
        Delivers root files d (writeFiles d root files).disk) ∨
      ∃ e done failing rest, (writeFiles d root files).result = .error e ∧
        files = done ++ failing :: rest ∧ Delivers root done d (writeFiles d root files).disk := by
  induction files generalizing d with
  | nil => exact .inl ⟨rfl, .refl root d⟩
  | cons f files ih =>
    have hf := h.inner f List.mem_cons_self
    have htail := h.sublist (List.sublist_cons_self f files)
    have hcons : ∀ done, done.Sublist files → ∀ d₁ d₂, Delivers root [f] d d₁ →
        Delivers root done d₁ d₂ → Delivers root (f :: done) d d₂ := by
      intro done hdone d₁ d₂ hfirst hrest
      have hdone : AreApart ([f] ++ done) := h.sublist (hdone.cons_cons f)
      exact hfirst.append hrest hdone.inner hdone.parse_ne
    have hstep := delivers_writeFile root hf d
    rw [writeFiles_cons]
    rw [show root.join (Path.parse f.1) = target root f from rfl]
    generalize writeFile d (target root f) f.2 = w at hstep ⊢
    rcases hstep with ⟨hresult, hfirst⟩ | ⟨e, hresult, hnone⟩
    · rw [hresult]
      rcases ih htail w.disk with ⟨hmore, hrest⟩ | ⟨e, done, failing, rest, hmore, hsplit, hrest⟩
      · refine .inl ⟨?_, hcons files (.refl files) _ _ hfirst hrest⟩
        dsimp only
        rw [hmore]
        rfl
      · refine .inr ⟨e, f :: done, failing, rest, ?_, by rw [hsplit, List.cons_append], ?_⟩
        · dsimp only
          rw [hmore]
          rfl
        · refine hcons done ?_ _ _ hfirst hrest
          rw [hsplit]
          exact List.sublist_append_left _ _
    · refine .inr ⟨e, [], f, files, ?_, rfl, ?_⟩
      · rw [hresult]
      · rw [hresult]
        exact hnone

theorem writesInOrder_writeFiles (root : Path) {files : List (String × String)}
    (h : AreApart files) (d : Disk) :
    WritesInOrder root files d (writeFiles d root files) := by
  rcases delivers_writeFiles root h d with
    ⟨hresult, hall⟩ | ⟨e, done, failing, rest, hresult, hsplit, hdone⟩
  · refine ⟨fun paths hpaths => ?_, fun e he => ?_⟩
    · rw [hresult] at hpaths
      exact ⟨(Except.ok.inj hpaths).symm, hall.isWritten h.inner⟩
    · rw [hresult] at he
      cases he
  · rw [hsplit] at h
    refine ⟨fun paths hpaths => ?_, fun _ _ => ⟨done, failing, rest, hsplit, ?_, ?_⟩⟩
    · rw [hresult] at hpaths
      cases hpaths
    · exact hdone.isWritten (h.sublist (List.sublist_append_left _ _)).inner
    · intro f hf l hl
      refine hdone.others fun g hg hgl => ?_
      have hinner := h.inner
      exact h.parse_ne g hg f hf (join_inj_of_locate (hinner g (List.mem_append_left _ hg))
        (hinner f (List.mem_append_right _ hf)) hgl hl)

/-- A directory in the place of the second file: the first is written, the third is not. -/
example :
    let d : Disk := { entries := [(["b"], .directory)] }
    let w := writeFiles d ⟨"", []⟩ [("a", "1"), ("b", "2"), ("c", "3")]
    w.disk.entries = [(["a"], .file [49]), (["b"], .directory)] ∧
      w.result = .error ⟨.isDirectory, ⟨"", ["b"]⟩⟩ := by
  decide

/-! ## The files of a project -/

theorem isComponent_of_isWorkloadName {t : String} (h : Text.isWorkloadName t = true) :
    Path.IsComponent t ∧ t ≠ ".." := by
  have hdot : '.' ∉ t.toList := Text.not_mem_of_isName (by decide) (by decide) (by decide) h
  refine ⟨⟨?noSlash, ?nonempty, ?notDot⟩, ?notDots⟩
  case noSlash => exact Text.not_mem_of_isName (by decide) (by decide) (by decide) h
  case nonempty =>
    rintro rfl
    exact absurd h (by decide)
  case notDot =>
    rintro rfl
    exact hdot (by decide)
  case notDots =>
    rintro rfl
    exact hdot (by decide)

/-- The names of the files in every module. -/
theorem isComponent_fileName : ∀ name ∈ ["provider.tf", "variables.tf", "main.tf", "outputs.tf"],
    Path.IsComponent name ∧ name ≠ ".." := by
  intro name hname
  simp only [List.mem_cons, List.not_mem_nil, or_false] at hname
  rcases hname with rfl | rfl | rfl | rfl
  all_goals exact ⟨⟨by decide, by decide, by decide⟩, by decide⟩

/-- The path of a file in a module, component by component. -/
theorem modulePath_eq (t name : String) :
    "modules/" ++ t ++ ("/" ++ name) = "/".intercalate ["modules", t, name] := by
  rw [String.intercalate_cons_cons, String.intercalate_cons_cons, String.intercalate_singleton]
  simp only [← String.append_assoc]
  rfl

theorem spells_of_mem_modulePaths {t path : String} (ht : Text.isWorkloadName t = true)
    (h : path ∈ modulePaths t) : Path.Spells path := by
  obtain ⟨htype, htypeDots⟩ := isComponent_of_isWorkloadName ht
  have hspells : ∀ name ∈ ["provider.tf", "variables.tf", "main.tf", "outputs.tf"],
      Path.Spells ("modules/" ++ t ++ ("/" ++ name)) := by
    intro name hname
    obtain ⟨hname, hnameDots⟩ := isComponent_fileName name hname
    rw [modulePath_eq]
    refine Path.spells_intercalate (List.cons_ne_nil _ _) ?_ ?_
    · rw [List.forall_mem_cons, List.forall_mem_cons, List.forall_mem_singleton]
      exact ⟨⟨by decide, by decide, by decide⟩, htype, hname⟩
    · simp [Ne.symm htypeDots, Ne.symm hnameDots]
  simp only [modulePaths, List.mem_cons, List.not_mem_nil, or_false] at h
  rcases h with rfl | rfl | rfl
  · exact hspells "variables.tf" (by decide)
  · exact hspells "main.tf" (by decide)
  · exact hspells "outputs.tf" (by decide)

theorem areApart_of_compiled {l : Module.Library} {spec : Spec} {options : Options}
    {s : Network.Subnets} {p : Project} (named : spec.Named) (h : IsCompiled l spec options s p) :
    AreApart p.files := by
  have hpaths := paths_of_compiled h
  constructor
  · intro f hf
    have hmem : f.1 ∈ p.files.map Prod.fst := List.mem_map_of_mem hf
    rw [hpaths] at hmem
    rcases List.mem_append.mp hmem with hroot | hmodule
    · obtain ⟨hname, hdots⟩ := isComponent_fileName f.1 (List.mem_of_mem_take (i := 3) hroot)
      have hspells := Path.spells_intercalate (List.cons_ne_nil f.1 [])
        (List.forall_mem_singleton.mpr hname) fun h => hdots (List.mem_singleton.mp h).symm
      rwa [String.intercalate_singleton] at hspells
    · obtain ⟨t, ht, hmodule⟩ := List.mem_flatMap.mp hmodule
      obtain ⟨w, hw, rfl⟩ := mem_distinctTypes.mp ht
      exact spells_of_mem_modulePaths (named.types w hw) hmodule
  · rw [hpaths]
    exact nodup_paths (nodup_eraseDups _)

/-! ## Generating -/

/-- Nothing happens to the disk unless a specification was read and compiled in full, and
then nothing happens but that the files of its project are written. -/
structure IsAtomic (l : Module.Library) (d : Disk) (specPath out : Path) (options : Options) :
    Prop where
  unread : ∀ e, Spec.ofFile d specPath = .error e →
    (generate l d specPath out options).disk = d ∧
      (generate l d specPath out options).result = .error (.file e)
  uncompiled : ∀ spec e, Spec.ofFile d specPath = .ok spec →
    (compile l spec options).result = .error e →
      (generate l d specPath out options).disk = d ∧
        (generate l d specPath out options).result = .error (.compile e)
  generated : ∀ spec p, Spec.ofFile d specPath = .ok spec → (compile l spec options).result = .ok p →
    (generate l d specPath out options).disk = (write d out p).disk ∧
      (generate l d specPath out options).result =
        ((write d out p).result.map fun _ => p).mapError .storage
  written : ∀ spec p, spec.IsLoaded → (compile l spec options).result = .ok p →
    WritesInOrder out p.files d (write d out p)

theorem writesInOrder_write (root : Path) {p : Project} (h : AreApart p.files) (d : Disk) :
    WritesInOrder root p.files d (write d root p) := by
  have hfiles := writesInOrder_writeFiles root h d
  rw [write]
  dsimp only
  cases hresult : (writeFiles d root p.files).result with
  | error e => exact ⟨fun _ h => (error_ne_ok h).elim, fun _ _ => hfiles.failed e hresult⟩
  | ok paths =>
    refine ⟨fun paths' hpaths => ?_, fun _ h => (error_ne_ok h.symm).elim⟩
    rw [← Except.ok.inj hpaths]
    exact hfiles.succeeded paths hresult

section

variable {l : Module.Library} {d : Disk} {specPath : Path} {options : Options} {spec : Spec}

theorem generate_of_unread {e} (h : Spec.ofFile d specPath = .error e) (out : Path) :
    (generate l d specPath out options).disk = d ∧
      (generate l d specPath out options).result = .error (.file e) := by
  rw [generate, h]
  exact ⟨rfl, rfl⟩

theorem generate_of_uncompiled {e} (hspec : Spec.ofFile d specPath = .ok spec)
    (h : (compile l spec options).result = .error e) (out : Path) :
    (generate l d specPath out options).disk = d ∧
      (generate l d specPath out options).result = .error (.compile e) := by
  rw [generate, hspec]
  dsimp only
  rw [h]
  exact ⟨rfl, rfl⟩

theorem generate_of_compiled {p : Project} (hspec : Spec.ofFile d specPath = .ok spec)
    (h : (compile l spec options).result = .ok p) (out : Path) :
    (generate l d specPath out options).disk = (write d out p).disk ∧
      (generate l d specPath out options).result =
        ((write d out p).result.map fun _ => p).mapError .storage := by
  rw [generate, hspec]
  dsimp only
  rw [h]
  exact ⟨rfl, rfl⟩

theorem writesInOrder_of_compile {p : Project} (loaded : spec.IsLoaded)
    (h : (compile l spec options).result = .ok p) (out : Path) (d : Disk) :
    WritesInOrder out p.files d (write d out p) := by
  obtain ⟨s, hs⟩ := compiled_of_compile h
  exact writesInOrder_write out (areApart_of_compiled loaded.named hs) d

end

theorem generate_isAtomic (l : Module.Library) (d : Disk) (specPath out : Path) (options : Options) :
    IsAtomic l d specPath out options where
  unread _ he := generate_of_unread he out
  uncompiled _ _ hspec he := generate_of_uncompiled hspec he out
  generated _ _ hspec hp := generate_of_compiled hspec hp out
  written _ _ loaded hp := writesInOrder_of_compile loaded hp out d

end Project
end Groundplan
