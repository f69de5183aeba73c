/-
Generating again what has been generated.

Before a file is written it is compared with what is read back of it, and reading unifies
line ends.  A file that holds its text already is therefore found to be changed exactly if
the text has a carriage return.  The renderer escapes those of texts and splits comments at
them, so one can only come from source text that a program has put into a specification.
Without such source text generating again says nothing of the files and leaves them as they
are.
-/
import Groundplan.Proofs.Project.Fresh
import Groundplan.Proofs.Project.Records
import Groundplan.Proofs.Storage.Agreement

namespace Groundplan
namespace Project

open Hcl Hcl.Scan Storage Storage.Disk

/-- A text that is read back as it was written. -/
def IsReturnFree (cs : List Char) : Prop := '\r' ∉ cs

instance : DecidablePred IsReturnFree := fun cs => inferInstanceAs (Decidable (¬('\r' ∈ cs)))

/-- Generating again after files were written: it succeeds, the disk stays as it is, and
nothing is said to be overwritten. -/
structure Regenerates (l : Module.Library) (d : Disk) (out : Path) (spec : Spec) (options : Options)
    (p : Project) : Prop where
  returnFree : ∀ f ∈ p.files, IsReturnFree f.2.toList
  compiled : (compile l spec options).result = .ok p
  written : (write d out p).result = .ok (p.files.map (target out))
  same : SameTree d (write d out p).disk
  silent : ∀ path, overwriteRecord path ∉ (compile l spec options).records ∧
    overwriteRecord path ∉ (write d out p).records

/-! ## Texts without carriage returns -/

theorem ne_return_of_closing? {c d : Char} (h : closing? c = some d) : c ≠ '\r' ∧ d ≠ '\r' := by
  unfold closing? at h
  split at h
  · cases h
    decide
  · cases h
    decide
  · cases h
    decide
  · cases h

theorem composes_isReturnFree : Composes IsReturnFree where
  append := fun ha hb hmem => (List.mem_append.mp hmem).elim ha hb
  brackets := by
    intro c d cs hc h hmem
    simp only [List.mem_cons, List.mem_append, List.not_mem_nil, or_false] at hmem
    obtain ⟨hopen, hclose⟩ := ne_return_of_closing? hc
    rcases hmem with hmem | hmem | hmem
    · exact hopen hmem.symm
    · exact h hmem
    · exact hclose hmem.symm
  inert := by
    intro cs h hmem
    exact absurd (List.all_eq_true.mp h _ hmem) (by decide)
  literal := break_not_mem_quote (.inr rfl)
  template := break_not_mem_quoteTemplate (.inr rfl)
  comment := by
    intro cs h hmem
    simp only [List.mem_cons, List.mem_append, List.not_mem_nil, or_false] at hmem
    rcases hmem with hmem | hmem | hmem
    · exact absurd hmem (by decide)
    · exact absurd (h _ hmem) (by decide)
    · exact absurd hmem (by decide)

/-- Only source text that a specification brings along can have a carriage return. -/
theorem isReturnFree_of_compiled {spec : Spec} {options : Options} {s : Network.Subnets}
    {p : Project} (named : spec.Named) (brings : Brings (holds IsReturnFree) spec)
    (h : IsCompiled .builtIn spec options s p) : ∀ f ∈ p.files, IsReturnFree f.2.toList :=
  h.forall_files composes_isReturnFree (fun _ h => h.2) named.names brings

/-! ## A file that is there already -/

/-- The file at a path holds a text. -/
def HoldsText (d : Disk) (path : Path) (text : String) : Prop :=
  ∃ l, d.locate path = .ok l ∧ d.entry? l = some (.file (Text.Utf8.encode text))

theorem HoldsText.of_sameTree {d d' : Disk} {path : Path} {text : String} (h : HoldsText d path text)
    (hsame : SameTree d d') : HoldsText d' path text := by
  obtain ⟨l, hl, hfile⟩ := h
  exact ⟨l, (hsame.locate path).trans hl, (hsame.entry l).trans hfile⟩

/-- How bytes read when they are compared with a text. -/
def shown (bytes : List UInt8) : String :=
  String.ofList (Text.unifyNewlines (Text.Utf8.decodeLossy bytes))

theorem shown_encode (text : String) :
    shown (Text.Utf8.encode text) = String.ofList (Text.unifyNewlines text.toList) := by
  rw [shown, Text.Utf8.decodeLossy_encode]

theorem shown_encode_eq_iff {text : String} :
    shown (Text.Utf8.encode text) = text ↔ IsReturnFree text.toList := by
  rw [shown_encode, IsReturnFree, ← Text.unifyNewlines_eq_self_iff]
  constructor
  · intro heq
    rw [← String.toList_ofList (l := Text.unifyNewlines _), heq]
  · intro heq
    rw [heq, String.ofList_toList]

theorem differs_of_holdsText {d : Disk} {path : Path} {text : String} (h : HoldsText d path text) :
    differs d path text = .ok (decide ('\r' ∈ text.toList)) := by
  obtain ⟨l, hl, hfile⟩ := h
  have hpresent : d.isPresent path = true := by
    rw [isPresent, stat?, hl]
    dsimp only
    rw [hfile]
    rfl
  have hread : d.readLossyText path = .ok (shown (Text.Utf8.encode text)) := by
    rw [readLossyText, read_of_entry hl hfile]
    rfl
  have hchanged : (shown (Text.Utf8.encode text) != text) = decide ('\r' ∈ text.toList) := by
    rw [bne, Bool.not_eq_eq_eq_not, Bool.eq_iff_iff, beq_iff_eq, Bool.not_eq_true',
      decide_eq_false_iff_not]
    exact shown_encode_eq_iff
  rw [differs, if_pos hpresent, hread]
  exact congrArg Except.ok hchanged

/-- What writing says of files that hold their texts already. -/
def overwritten (root : Path) (files : List (String × String)) : List LogRecord :=
  (files.filter fun f => decide ('\r' ∈ f.2.toList)).map fun f => overwriteRecord (target root f)

theorem writeFile_again {d : Disk} {path : Path} {text : String} (hparts : path.parts ≠ [])
    (h : HoldsText d path text) :
    ∃ d', writeFile d path text =
        ⟨d', if '\r' ∈ text.toList then [overwriteRecord path] else [], .ok path⟩ ∧
      SameTree d d' := by
  obtain ⟨l, hl, hfile⟩ := h
  have hroot : l ≠ [] := by
    rintro rfl
    cases hfile
  have hwrite := writeText_ok_of_locate hl (by rw [hfile]; exact fun h => nomatch h) text
  refine ⟨_, ?_, sameTree_put hroot hfile⟩
  rw [writeFile, makeDirectories_of_isDirectory (isDirectory_parent hparts hl)]
  dsimp only
  rw [differs_of_holdsText ⟨l, hl, hfile⟩]
  dsimp only
  rw [hwrite]
  simp only [decide_eq_true_eq]

theorem writeFiles_again {d : Disk} {root : Path} {files : List (String × String)}
    (hinner : ∀ f ∈ files, (Path.parse f.1).IsInner)
    (h : ∀ f ∈ files, HoldsText d (target root f) f.2) :
    ∃ d', writeFiles d root files = ⟨d', overwritten root files, .ok (files.map (target root))⟩ ∧
      SameTree d d' := by
  induction files generalizing d with
  | nil => exact ⟨d, rfl, .refl d⟩
  | cons f files ih =>
    have hparts : (target root f).parts ≠ [] := by
      have hf := hinner f List.mem_cons_self
      rw [target, Path.join_of_isInner root hf]
      exact List.append_ne_nil_of_right_ne_nil _ hf.parts
    obtain ⟨d₁, hfirst, hsame₁⟩ := writeFile_again hparts (h f List.mem_cons_self)
    obtain ⟨d₂, hrest, hsame₂⟩ := ih (fun g hg => hinner g (List.mem_cons_of_mem f hg))
      fun g hg => (h g (List.mem_cons_of_mem f hg)).of_sameTree hsame₁
    refine ⟨d₂, ?_, hsame₁.trans hsame₂⟩
    rw [writeFiles_cons]
    rw [show root.join (Path.parse f.1) = target root f from rfl, hfirst]
    dsimp only
    rw [hrest, overwritten, overwritten, List.filter_cons]
    by_cases hreturn : '\r' ∈ f.2.toList
    · simp only [hreturn, if_true, decide_true, List.map_cons]
      rfl
    · simp only [hreturn, if_false, decide_false, Bool.false_eq_true, List.map_cons]
      rfl

/-- Writing a project where it stands already: files are overwritten if and only if they
have a carriage return, and nothing changes. -/
theorem write_again {d : Disk} {root : Path} {p : Project} (hapart : AreApart p.files)
    (h : ∀ f ∈ p.files, HoldsText d (target root f) f.2) :
    (write d root p).result = .ok (p.files.map (target root)) ∧ SameTree d (write d root p).disk ∧
      ∃ d', (write d root p).records = overwritten root p.files ++
        .debug s!"Wrote {p.files.length} files to {root.toText}" ::
          staleRecords d' root (p.modules.map ModuleFiles.typeName) := by
  obtain ⟨d', hwrite, hsame⟩ := writeFiles_again hapart.inner h
  rw [write, hwrite]
  refine ⟨rfl, hsame, d', ?_⟩
  simp only [List.length_map]

theorem holdsText_of_written {d : Disk} {root : Path} {p : Project} {paths : List Path}
    (hapart : AreApart p.files) (h : (write d root p).result = .ok paths) :
    ∀ f ∈ p.files, HoldsText (write d root p).disk (target root f) f.2 := by
  rw [result_write] at h
  rw [disk_write]
  rcases delivers_writeFiles root hapart d with ⟨-, hdelivers⟩ | ⟨e, _, _, _, hresult, -⟩
  · exact hdelivers.holds
  · rw [hresult] at h
    cases h

/-! ## Generating again -/

/-- Files without carriage returns are generated again in silence. -/
theorem regenerates_of_isReturnFree {l : Module.Library} {spec : Spec} {options : Options}
    {p : Project} {d : Disk} {out : Path} {paths : List Path} (builtIn : IsBuiltIn l)
    (named : spec.Named) (compiled : (compile .builtIn spec options).result = .ok p)
    (hfree : ∀ f ∈ p.files, IsReturnFree f.2.toList) (written : (write d out p).result = .ok paths) :
    Regenerates (compile l spec options).library (write d out p).disk out spec options p := by
  obtain ⟨hlibrary, -⟩ := compile_of_isBuiltIn builtIn spec options
  obtain ⟨s, hs⟩ := compiled_of_builtIn compiled
  have hapart := areApart_of_compiled named hs
  obtain ⟨hwritten, hsame, d', hrecords⟩ :=
    write_again hapart (holdsText_of_written hapart written)
  refine ⟨hfree, ?compiled, hwritten, hsame, fun path => ⟨?remark, ?_⟩⟩
  case compiled =>
    rw [(compile_of_isBuiltIn hlibrary spec options).2, compiled]
  case remark =>
    exact fun hmem => (isRemark_compile hlibrary spec options _ hmem).ne_overwriteRecord path rfl
  have hnone : overwritten out p.files = [] := by
    rw [overwritten, List.map_eq_nil_iff, List.filter_eq_nil_iff]
    intro f hf hreturn
    exact hfree f hf (of_decide_eq_true hreturn)
  rw [hrecords, hnone, List.nil_append, List.mem_cons, not_or]
  exact ⟨(fun h => nomatch h), overwriteRecord_not_mem_staleRecords path⟩

/-- What is read from a file brings nothing raw along, so it is always generated again in
silence. -/
theorem regenerates_of_ofFile {l : Module.Library} {spec : Spec} {options : Options} {p : Project}
    {disk d : Disk} {path out : Path} {paths : List Path} (builtIn : IsBuiltIn l)
    (file : Spec.ofFile disk path = .ok spec) (compiled : (compile l spec options).result = .ok p)
    (written : (write d out p).result = .ok paths) :
    Regenerates (compile l spec options).library (write d out p).disk out spec options p := by
  have named := (Spec.IsLoaded.file file).named
  rw [(compile_of_isBuiltIn builtIn spec options).2] at compiled
  obtain ⟨s, hs⟩ := compiled_of_builtIn compiled
  have hfree := isReturnFree_of_compiled named (brings_of_accepted (Spec.accepted_of_ofFile file)) hs
  exact regenerates_of_isReturnFree builtIn named compiled hfree written

/-- A specification that compiles is generated again in silence, if nothing raw that it
brings along has a carriage return. -/
theorem regenerates_of_written {l : Module.Library} {spec : Spec} {options : Options} {p : Project}
    {d : Disk} {out : Path} {paths : List Path} (builtIn : IsBuiltIn l) (loaded : spec.IsLoaded)
    (brings : Brings (holds IsReturnFree) spec) (compiled : (compile l spec options).result = .ok p)
    (written : (write d out p).result = .ok paths) :
    Regenerates (compile l spec options).library (write d out p).disk out spec options p := by
  rw [(compile_of_isBuiltIn builtIn spec options).2] at compiled
  obtain ⟨s, hs⟩ := compiled_of_builtIn compiled
  have hfree := isReturnFree_of_compiled loaded.named brings hs
  exact regenerates_of_isReturnFree builtIn loaded.named compiled hfree written

/-- A tag that refers to a variable, which only a program can put into a specification. -/
def ownerTag (source : String) : Datum :=
  .mapping [(.text "metadata", .mapping [(.text "tags", .mapping [(.text "owner", .expr source)])])]

def ownerTagged (source : String) : Spec := { metadata := { tags := [("owner", .expr source)] } }

theorem exists_generated_ownerTagged (source : String) : ∃ p paths,
    (compile .builtIn (ownerTagged source) {}).result = .ok p ∧
      (write {} ⟨"", []⟩ p).result = .ok paths := by
  have hcheck : check (ownerTagged source) = .ok defaultSubnets :=
    check_ok_iff.mpr ⟨show Text.isProviderName "aws" = true by decide, List.not_mem_nil,
      ofCidr_default⟩
  obtain ⟨p, hp⟩ : ∃ p, (compile .builtIn (ownerTagged source) {}).result = .ok p :=
    exists_compiled hcheck (fun h => nomatch h) rfl rfl
  obtain ⟨s, hs⟩ := compiled_of_builtIn hp
  have hmodules : p.modules = [] := List.forall₂_nil_left_iff.mp hs.modules
  refine ⟨p, [⟨"", ["provider.tf"]⟩, ⟨"", ["variables.tf"]⟩, ⟨"", ["main.tf"]⟩], hp, ?_⟩
  rw [result_write, files_of_no_modules hmodules]
  rfl

theorem regenerates_of_written_ownerTagged : ∃ p paths,
    Spec.ofDatum "<spec>" (ownerTag "var.owner") = .ok (ownerTagged "var.owner") ∧
      (compile .builtIn (ownerTagged "var.owner") {}).result = .ok p ∧
        (write {} ⟨"", []⟩ p).result = .ok paths ∧
          Regenerates (compile .builtIn (ownerTagged "var.owner") {}).library (write {} ⟨"", []⟩ p).disk
            ⟨"", []⟩ (ownerTagged "var.owner") {} p := by
  obtain ⟨p, paths, hp, hpaths⟩ := exists_generated_ownerTagged "var.owner"
  have hload : Spec.ofDatum "<spec>" (ownerTag "var.owner") = .ok (ownerTagged "var.owner") := rfl
  have hbrings : Brings (holds IsReturnFree) (ownerTagged "var.owner") :=
    ⟨by decide +kernel, fun w hw => absurd hw List.not_mem_nil⟩
  exact ⟨p, paths, hload, hp, hpaths,
    regenerates_of_written (.inl rfl) (.datum hload) hbrings hp hpaths⟩

/-- Source text with a carriage return is written as it is, and is then read otherwise. -/
theorem overwrites_ownerTagged : ∃ p paths,
    Spec.ofDatum "<spec>" (ownerTag "a\rb") = .ok (ownerTagged "a\rb") ∧
      (compile .builtIn (ownerTagged "a\rb") {}).result = .ok p ∧
        (write {} ⟨"", []⟩ p).result = .ok paths ∧
          overwriteRecord ⟨"", ["variables.tf"]⟩ ∈
            (write (write {} ⟨"", []⟩ p).disk ⟨"", []⟩ p).records := by
  obtain ⟨p, paths, hp, hpaths⟩ := exists_generated_ownerTagged "a\rb"
  have hload : Spec.ofDatum "<spec>" (ownerTag "a\rb") = .ok (ownerTagged "a\rb") := rfl
  obtain ⟨s, hs⟩ := compiled_of_builtIn hp
  have hnamed : (ownerTagged "a\rb").Named := (Spec.IsLoaded.datum hload).named
  have hapart := areApart_of_compiled hnamed hs
  obtain ⟨-, -, d', hrecords⟩ := write_again hapart (holdsText_of_written hapart hpaths)
  refine ⟨p, paths, hload, hp, hpaths, ?_⟩
  have hmem : ("variables.tf", p.root.inputs) ∈ p.files :=
    List.mem_append_left _ (List.mem_cons_of_mem _ List.mem_cons_self)
  have hreturn : '\r' ∈ p.root.inputs.toList := by
    have hlocals : nested "locals" [set "common_tags" (.object [("owner", .expr "a\rb")])] ∈
        (withBanner p.name (inputsDocument (ownerTagged "a\rb").metadata)).items :=
      List.mem_of_getLast? rfl
    refine Rows.mem_of_itemLines hs.inputs hlocals fun inner hinner => ?_
    obtain ⟨text, htext, rfl⟩ := Rows.blockLines_attribute hinner
    refine ⟨_, List.mem_cons_of_mem _ List.mem_cons_self, ?_⟩
    rw [String.toList_append]
    refine List.mem_append_right _ ?_
    cases htext
    decide +kernel
  rw [hrecords]
  have hparse : Path.parse "variables.tf" = ⟨"", ["variables.tf"]⟩ := by decide +kernel
  have htarget : target ⟨"", []⟩ ("variables.tf", p.root.inputs) = ⟨"", ["variables.tf"]⟩ := by
    rw [target, hparse]
    rfl
  refine List.mem_append_left _ (List.mem_map.mpr ⟨("variables.tf", p.root.inputs), ?_, ?_⟩)
  · exact List.mem_filter.mpr ⟨hmem, decide_eq_true hreturn⟩
  · rw [htarget]

end Project
end Groundplan
