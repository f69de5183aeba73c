/-
What is said while a project is compiled and written.

Records are texts, and one kind is told from another only by its words.  Compiling says
what it has looked up and what it has found missing; writing says which files it overwrites
and which modules are not used any more.  The two kinds that writing gives warnings of are
different from each other and from all that compiling says.
-/
import Groundplan.Project.Write
import Groundplan.Proofs.Project.Report

namespace Groundplan
namespace Project

open Storage Storage.Disk

/-! ## Compiling -/

/-- What compiling with the built-in templates can say. -/
inductive IsRemark (credentials : Credentials) : LogRecord → Prop
  | debug (message : String) : IsRemark credentials (.debug message)
  | info (message : String) : IsRemark credentials (.info message)
  | missing (workload field : String) : IsRemark credentials (.warning
      ("Workload " ++ Text.quoted workload ++ " has no " ++ Text.quoted field ++ "; rendering it as " ++
        Text.quoted Module.undefined))
  | template {t : Module.Template} {w : String} (ht : t ∈ builtInTemplates)
      (hw : w ∈ t.warnings credentials) : IsRemark credentials (.warning w)

theorem isRemark_lookupRecords {credentials : Credentials} {l : Module.Library} {type : String} :
    ∀ r ∈ l.lookupRecords type, IsRemark credentials r := by
  rw [Module.Library.lookupRecords]
  split
  · exact List.forall_mem_nil _
  · exact List.forall_mem_singleton.mpr (.debug _)

theorem isRemark_bound {credentials : Credentials} {l : Module.Library} (b : Bound) :
    ∀ r ∈ b.records l, IsRemark credentials r := by
  rw [Bound.records, List.forall_mem_append, List.forall_mem_append]
  refine ⟨⟨isRemark_lookupRecords, List.forall_mem_map.mpr fun f _ => .missing _ _⟩, ?_⟩
  split
  · exact List.forall_mem_nil _
  · exact List.forall_mem_singleton.mpr (.info _)

theorem isRemark_compileModules {project : String} {credentials : Credentials}
    {given types : List String} :
    ∀ r ∈ (compileModules .builtIn project credentials given types).1, IsRemark credentials r := by
  induction types generalizing given with
  | nil => exact List.forall_mem_nil _
  | cons t types ih =>
    have hfirst : ∀ r ∈ Module.Library.builtIn.lookupRecords t ++
        (newWarnings given ((Module.Library.builtIn.template t).warnings credentials)).map .warning,
        IsRemark credentials r := by
      rw [List.forall_mem_append, List.forall_mem_map]
      exact ⟨isRemark_lookupRecords, fun w hw =>
        .template (template_mem_builtInTemplates t) (mem_newWarnings.mp hw).1⟩
    rw [compileModules]
    dsimp only
    split
    · exact hfirst
    · exact List.forall_mem_append.mpr ⟨hfirst, ih⟩

theorem isRemark_compile {l : Module.Library} (hl : IsBuiltIn l) (spec : Spec) (options : Options) :
    ∀ r ∈ (compile l spec options).records, IsRemark options.credentials r := by
  cases hs : check spec with
  | error f =>
    rw [compile, hs]
    exact List.forall_mem_nil _
  | ok s =>
    have hbound : ∀ r ∈ (bindAll .builtIn spec).flatMap (Bound.records .builtIn),
        IsRemark options.credentials r := by
      intro r hr
      obtain ⟨b, -, hr⟩ := List.mem_flatMap.mp hr
      exact isRemark_bound b r hr
    rw [(compile_builtIn hl hs).1, compileBound, flaw?_builtIn rfl]
    dsimp only
    split
    · exact hbound
    · exact List.forall_mem_append.mpr ⟨hbound, isRemark_compileModules⟩

theorem quoted_undefined : Text.quoted Module.undefined = "'undefined'" := rfl

/-! ## Writing -/

def staleWords : String := " is not generated from this spec any more; remove it if no longer needed"

/-- The warning about a module that is not used any more. -/
def staleRecord (path : Path) : LogRecord := .warning (path.toText ++ staleWords)

def isStale (r : LogRecord) : Bool :=
  r.level == .warning && staleWords.toList.isSuffixOf r.message.toList

theorem isStale_staleRecord (path : Path) : isStale (staleRecord path) = true := by
  rw [isStale, Bool.and_eq_true, List.isSuffixOf_iff_suffix]
  refine ⟨rfl, ?_⟩
  show staleWords.toList <:+ (path.toText ++ staleWords).toList
  rw [String.toList_append]
  exact List.suffix_append _ _

/-- The end of a warning decides whether it is about a module. -/
theorem not_isStale_of_end {message : String}
    (h : message.toList.reverse.take 4 ≠ ['d', 'e', 'd', 'e']) : isStale (.warning message) = false := by
  refine Bool.eq_false_iff.mpr fun hstale => h ?_
  rw [isStale, Bool.and_eq_true, List.isSuffixOf_iff_suffix] at hstale
  obtain ⟨front, hfront⟩ := hstale.2
  rw [show (LogRecord.warning message).message = message from rfl] at hfront
  rw [← hfront, List.reverse_append, List.take_append_of_le_length (by decide)]
  rfl

theorem not_isStale_overwriteRecord (path : Path) : isStale (overwriteRecord path) = false := by
  show isStale (.warning
    ("Overwriting " ++ path.toText ++ "; changes made since the last generate are discarded")) = false
  refine not_isStale_of_end ?_
  rw [String.toList_append, List.reverse_append, List.take_append_of_le_length (by decide)]
  decide

/-- How the warnings of templates start and end. -/
theorem ends_of_mem_warnings {credentials : Credentials} {t : Module.Template} {w : String}
    (ht : t ∈ builtInTemplates) (hw : w ∈ t.warnings credentials) :
    w.toList.take 1 ≠ ['O'] ∧ w.toList.reverse.take 4 ≠ ['d', 'e', 'd', 'e'] := by
  have hall : ∀ t ∈ builtInTemplates, ∀ w ∈ t.warnings .managed ++ t.warnings .placeholder,
      w.toList.take 1 ≠ ['O'] ∧ w.toList.reverse.take 4 ≠ ['d', 'e', 'd', 'e'] := by
    decide +kernel
  refine hall t ht w ?_
  cases credentials with
  | managed => exact List.mem_append_left _ hw
  | placeholder => exact List.mem_append_right _ hw

theorem IsRemark.not_isStale {credentials : Credentials} {r : LogRecord}
    (h : IsRemark credentials r) : isStale r = false := by
  cases h with
  | debug message => rfl
  | info message => rfl
  | missing workload field =>
    refine not_isStale_of_end ?_
    rw [quoted_undefined, String.toList_append, List.reverse_append,
      List.take_append_of_le_length (by decide)]
    decide
  | template ht hw =>
    exact not_isStale_of_end (ends_of_mem_warnings ht hw).2

/-- What compiling says is never that a file is overwritten. -/
theorem IsRemark.ne_overwriteRecord {credentials : Credentials} {r : LogRecord}
    (h : IsRemark credentials r) (path : Path) : r ≠ overwriteRecord path := by
  have hstart : ∀ message : String, message.toList.take 1 ≠ ['O'] →
      LogRecord.warning message ≠ overwriteRecord path := by
    intro message hne heq
    refine hne ?_
    rw [show message = "Overwriting " ++ (path.toText ++
      "; changes made since the last generate are discarded") from
        (LogRecord.mk.inj heq).2.trans String.append_assoc, String.toList_append]
    rfl
  cases h with
  | debug message => exact fun h => nomatch h
  | info message => exact fun h => nomatch h
  | missing workload field =>
    refine hstart _ ?_
    simp only [String.append_assoc]
    rw [String.toList_append]
    show ['W'] ≠ ['O']
    decide
  | template ht hw =>
    exact hstart _ (ends_of_mem_warnings ht hw).1

/-- The names of the modules that writing warns of. -/
def staleNames (d : Disk) (root : Path) (types : List String) : List String :=
  match d.locate (root.child "modules") with
  | .error _ => []
  | .ok l =>
    if d.isDirectoryAt l then
      ((d.children l).filter fun e => e.2 == .directory && !types.contains e.1).map Prod.fst
    else []

theorem staleRecords_eq (d : Disk) (root : Path) (types : List String) :
    staleRecords d root types =
      (staleNames d root types).map fun name => staleRecord ((root.child "modules").child name) := by
  rw [staleRecords, staleNames]
  dsimp only
  cases d.locate (root.child "modules") with
  | error e => rfl
  | ok l =>
    dsimp only
    split
    · rw [List.map_map]
      rfl
    · rfl

theorem isStale_of_mem_staleRecords {d : Disk} {root : Path} {types : List String} {r : LogRecord}
    (h : r ∈ staleRecords d root types) : isStale r = true := by
  rw [staleRecords_eq] at h
  obtain ⟨name, -, rfl⟩ := List.mem_map.mp h
  exact isStale_staleRecord _

theorem overwriteRecord_not_mem_staleRecords (path : Path) {d : Disk} {root : Path}
    {types : List String} : overwriteRecord path ∉ staleRecords d root types := by
  intro h
  have hstale := isStale_of_mem_staleRecords h
  rw [not_isStale_overwriteRecord] at hstale
  cases hstale

/-! ## The warnings of one run -/

theorem not_isStale_writeFile (d : Disk) (path : Path) (content : String) :
    ∀ r ∈ (writeFile d path content).records, isStale r = false := by
  rw [writeFile]
  generalize d.makeDirectories path.parent = outcome
  obtain ⟨d₁, made⟩ := outcome
  cases made with
  | error failure => exact List.forall_mem_nil _
  | ok made =>
    dsimp only
    cases differs d₁ path content with
    | error e => exact List.forall_mem_nil _
    | ok changed =>
      have hrecords : ∀ r ∈ (if changed then [overwriteRecord path] else []), isStale r = false := by
        split
        · exact List.forall_mem_singleton.mpr (not_isStale_overwriteRecord path)
        · exact List.forall_mem_nil _
      dsimp only
      cases d₁.writeText path content with
      | error e => exact hrecords
      | ok d₂ => exact hrecords

theorem not_isStale_writeFiles (d : Disk) (root : Path) (files : List (String × String)) :
    ∀ r ∈ (writeFiles d root files).records, isStale r = false := by
  induction files generalizing d with
  | nil => exact List.forall_mem_nil _
  | cons f files ih =>
    have hfirst := not_isStale_writeFile d (root.join (Path.parse f.1)) f.2
    rw [writeFiles_cons]
    generalize writeFile d (root.join (Path.parse f.1)) f.2 = w at hfirst ⊢
    cases w.result with
    | error e => exact hfirst
    | ok path => exact List.forall_mem_append.mpr ⟨hfirst, ih w.disk⟩

theorem filter_isStale_eq_nil {records : List LogRecord} (h : ∀ r ∈ records, isStale r = false) :
    records.filter isStale = [] :=
  List.filter_eq_nil_iff.mpr fun r hr => Bool.eq_false_iff.mp (h r hr)

/-- A project that is written warns of the modules that it does not have. -/
theorem filter_isStale_write {d : Disk} {root : Path} {p : Project} {paths : List Path}
    (h : (writeFiles d root p.files).result = .ok paths) :
    (write d root p).records.filter isStale =
      staleRecords (writeFiles d root p.files).disk root (p.modules.map ModuleFiles.typeName) := by
  rw [write]
  dsimp only
  rw [h]
  dsimp only
  rw [List.filter_append, filter_isStale_eq_nil (not_isStale_writeFiles d root p.files),
    List.nil_append, List.filter_cons_of_neg (Bool.eq_false_iff.mp rfl)]
  exact List.filter_eq_self.mpr fun r hr => isStale_of_mem_staleRecords hr

end Project
end Groundplan
