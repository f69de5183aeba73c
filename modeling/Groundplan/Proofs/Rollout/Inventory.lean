/-
The report on placeholders.

Reading goes over the files of a directory in some order, finds placeholders that other
files have as well, and sorts them in the end.  Of all this only one thing is left: which
texts stand in the files.  A report is therefore described by a set of texts, and two trees
of files with the same texts have the same report, wherever the files are and however often
a text occurs.
-/
import Groundplan.Proofs.Rollout.Pattern
import Groundplan.Proofs.Rollout.References
import Groundplan.Proofs.Storage.Listing

namespace Groundplan
namespace Rollout

open Storage Storage.Disk

/-! ## What a report says -/

/-- The text of a generated file, with its line ends unified. -/
def IsSourceText (d : Disk) (root : Path) (text : String) : Prop :=
  ∃ path, IsSourcePath d root path ∧ d.readText path = .ok text

/-- Every generated file holds a text. -/
def HasSourceTexts (d : Disk) (root : Path) : Prop :=
  ∀ path, IsSourcePath d root path → ∃ text, d.readText path = .ok text

/-- What stands in front of the first mark of a default, or all if there is none. -/
def IsFront (text front : List Char) : Prop :=
  ¬[':', '-'] <:+: front ∧ (text = front ∨ ∃ default, text = front ++ ':' :: '-' :: default)

/-- A report on the texts at which `isSource` holds. -/
structure IsInventory (environment : List String) (isSource : String → Prop)
    (refs : List Reference) : Prop where
  increasing : refs.Pairwise fun r s => r.text < s.text
  complete : ∀ text, (∃ r ∈ refs, r.text = text) ↔
    ∃ source found, isSource source ∧ Finds escapedOpening source.toList found ∧ text.toList ∈ found
  named : ∀ r ∈ refs, ∃ front, IsFront r.text.toList front ∧
    r.name = if isVariableName (Text.strip (String.ofList front)) then
      some (Text.strip (String.ofList front)) else none
  set : ∀ r ∈ refs, r.isSet = true ↔ ∃ name ∈ environment, r.name = some name

/-! ## Names -/

theorem isFront_beforeDefault (text : List Char) : IsFront text (beforeDefault text) := by
  fun_induction beforeDefault text with
  | case1 default => exact ⟨by simp, .inr ⟨default, rfl⟩⟩
  | case2 c rest hc ih =>
    obtain ⟨hfront, hrest⟩ := ih
    constructor
    · rw [List.infix_cons_iff]
      rintro (hbegins | hinside)
      · rw [List.cons_prefix_cons] at hbegins
        obtain ⟨rfl, t, ht⟩ := hbegins
        -- The mark would stand in the text as well.
        rcases hrest with hrest | ⟨default, hrest⟩
        · exact hc t rfl (by rw [hrest, ← ht]; rfl)
        · exact hc _ rfl (by rw [hrest, ← ht]; rfl)
      · exact hfront hinside
    · rcases hrest with hrest | ⟨default, hrest⟩
      · exact .inl (by rw [← hrest])
      · exact .inr ⟨default, by rw [List.cons_append, ← hrest]⟩
  | case3 => exact ⟨by simp, .inl rfl⟩

/-- A name that was stripped has no newline behind it. -/
theorem isIdentifier_strip (s : String) :
    Text.isIdentifier (Text.strip s) = isVariableName (Text.strip s) := by
  rw [Bool.eq_iff_iff]
  constructor
  · intro h
    rcases Text.isName_iff.mp h with hword | ⟨word, -, hnewline⟩
    · exact hword
    · rw [Text.strip, String.toList_ofList, Text.trimBy] at hnewline
      have hlast := congrArg List.getLast? hnewline
      rw [List.getLast?_concat] at hlast
      exact absurd (Text.getLast?_trimEndBy hlast) (by decide)
  · intro h
    exact Text.isName_iff.mpr (.inl h)

/-! ## Sorting -/

theorem pairwise_distinctSorted (texts : List String) : (distinctSorted texts).Pairwise (· < ·) := by
  have hsorted : (distinctSorted texts).Pairwise fun a b => nameLe a b = true := by
    refine List.pairwise_mergeSort (fun a b c hab hbc => ?_) (fun a b => ?_) _
    · exact nameLe_iff.mpr ((nameLe_iff.mp hab).trans (nameLe_iff.mp hbc))
    · rw [Bool.or_eq_true, nameLe_iff, nameLe_iff]
      exact le_total a b
  have hdistinct : (distinctSorted texts).Pairwise fun a b => a ≠ b :=
    ((List.mergeSort_perm _ _).nodup_iff).mpr (Project.nodup_eraseDups texts)
  exact (hsorted.and hdistinct).imp fun hab => lt_of_le_of_ne (nameLe_iff.mp hab.1) hab.2

/-- Only which texts there are counts. -/
theorem distinctSorted_congr {as bs : List String} (h : ∀ text, text ∈ as ↔ text ∈ bs) :
    distinctSorted as = distinctSorted bs := by
  have has := pairwise_distinctSorted as
  have hbs := pairwise_distinctSorted bs
  have hperm : (distinctSorted as).Perm (distinctSorted bs) := by
    refine (List.perm_ext_iff_of_nodup (has.imp ne_of_lt) (hbs.imp ne_of_lt)).mpr fun text => ?_
    rw [mem_distinctSorted, mem_distinctSorted, h]
  exact hperm.eq_of_pairwise (fun a b _ _ hab hba => absurd hab (lt_asymm hba)) has hbs

theorem referencesIn_congr (environment : List String) {as bs : List String}
    (h : ∀ text, text ∈ as ↔ text ∈ bs) :
    referencesIn environment as = referencesIn environment bs := by
  unfold referencesIn
  dsimp only
  congr 1
  apply distinctSorted_congr
  intro text
  simp only [List.mem_flatMap, h]

/-! ## Reports -/

theorem isInventory_referencesIn (environment : List String) {sources : List String}
    {isSource : String → Prop} (h : ∀ text, text ∈ sources ↔ isSource text) :
    IsInventory environment isSource (referencesIn environment sources) where
  increasing := by
    unfold referencesIn
    dsimp only
    rw [List.pairwise_map]
    simp only [ofText_eq]
    exact pairwise_distinctSorted _
  complete := by
    intro text
    constructor
    · rintro ⟨r, hr, rfl⟩
      obtain ⟨source, hsource, found, hfound, rfl⟩ := mem_referencesIn.mp hr
      refine ⟨source, _, (h source).mp hsource, (finds_iff escapedMark_ne_nil).mpr rfl, ?_⟩
      rwa [ofText_eq, String.toList_ofList]
    · rintro ⟨source, found, hsource, hfinds, hfound⟩
      rw [← (finds_iff escapedMark_ne_nil).mp hfinds] at hfound
      refine ⟨_, mem_referencesIn.mpr ⟨source, (h source).mpr hsource, _, hfound, rfl⟩, ?_⟩
      rw [ofText_eq, String.ofList_toList]
  named := by
    intro r hr
    obtain ⟨-, -, found, -, rfl⟩ := mem_referencesIn.mp hr
    rw [ofText_eq]
    refine ⟨beforeDefault (String.ofList found).toList, isFront_beforeDefault _, ?_⟩
    dsimp only
    rw [variableName, isIdentifier_strip]
  set := by
    intro r hr
    obtain ⟨-, -, found, -, rfl⟩ := mem_referencesIn.mp hr
    rw [ofText_eq]
    dsimp only
    cases variableName (String.ofList found) with
    | none => simp
    | some name => simp

/-- The report is made from the texts of all generated files. -/
theorem exists_sourceTexts {d : Disk} {root : Path} (h : HasSourceTexts d root)
    (environment : List String) :
    ∃ texts, references environment d root = .ok (referencesIn environment texts) ∧
      ∀ text, text ∈ texts ↔ IsSourceText d root text := by
  obtain ⟨texts, htexts⟩ := exists_readAll fun path hpath => h path (mem_sourcePaths_iff.mp hpath)
  obtain ⟨hpaths, hmem⟩ := mem_of_readAll htexts
  refine ⟨texts, ?_, fun text => ?_⟩
  · rw [references, htexts]
    rfl
  constructor
  · intro htext
    obtain ⟨path, hpath, hread⟩ := hmem text htext
    exact ⟨path, mem_sourcePaths_iff.mp hpath, hread⟩
  · rintro ⟨path, hpath, hread⟩
    obtain ⟨text', htext', hread'⟩ := hpaths path (mem_sourcePaths_iff.mpr hpath)
    rw [hread] at hread'
    cases hread'
    exact htext'

/-- The report on files that all hold texts.  It is the same for any order in which the
texts may be taken, for any number of times that they occur, and for any other tree with
the same texts in its files. -/
theorem exists_isInventory {d : Disk} {root : Path} (readable : HasSourceTexts d root)
    (environment : List String) :
    ∃ refs, references environment d root = .ok refs ∧
      IsInventory environment (IsSourceText d root) refs ∧
      (∀ texts, (∀ text, text ∈ texts ↔ IsSourceText d root text) →
        referencesIn environment texts = refs) ∧
      ∀ d' root', HasSourceTexts d' root' →
        (∀ text, IsSourceText d' root' text ↔ IsSourceText d root text) →
          references environment d' root' = .ok refs := by
  obtain ⟨texts, hrefs, htexts⟩ := exists_sourceTexts readable environment
  refine ⟨_, hrefs, isInventory_referencesIn environment htexts, ?order, ?place⟩
  case order =>
    intro others hothers
    apply referencesIn_congr
    intro text
    rw [hothers, htexts]
  case place =>
    intro d' root' readable' hsame
    obtain ⟨others, hrefs', hothers⟩ := exists_sourceTexts readable' environment
    rw [hrefs', referencesIn_congr environment fun text => ?_]
    rw [hothers, htexts, hsame]

/-- A placeholder in two directories, and next to them a file that was fetched and is no
text. -/
def scattered : Disk where
  entries := [(["out"], .directory),
    (["out", "main.tf"], .file (Text.Utf8.encode "a = \"$$\x7bB:-x\x7d\"\r\n")),
    (["out", "modules"], .directory),
    (["out", "modules", "main.tf"], .file (Text.Utf8.encode "$$\x7b A\x7d$$\x7bB:-x\x7d")),
    (["out", ".terraform"], .directory),
    (["out", ".terraform", "main.tf"], .file [0xff])]

theorem isSourcePath_scattered {path : Path} : IsSourcePath scattered ⟨"", ["out"]⟩ path ↔
    path = ⟨"", ["out", "main.tf"]⟩ ∨ path = ⟨"", ["out", "modules", "main.tf"]⟩ := by
  constructor
  · rintro ⟨base, parts, hbase, -, rfl, hne, hthere, hname, hworking⟩
    have hout : base = ["out"] := (Except.ok.inj hbase).symm
    subst hout
    obtain ⟨e, he⟩ := (isSome_entry?_iff (List.cons_ne_nil _ _)).mp hthere
    simp only [scattered, List.mem_cons, Prod.mk.injEq, List.cons.injEq, true_and,
      List.not_mem_nil, or_false] at he
    rcases he with ⟨rfl, -⟩ | ⟨rfl, -⟩ | ⟨rfl, -⟩ | ⟨rfl, -⟩ | ⟨rfl, -⟩ | ⟨rfl, -⟩
    · exact absurd rfl hne
    · exact .inl rfl
    · exact absurd hname (by decide)
    · exact .inr rfl
    · exact absurd hname (by decide)
    · exact absurd List.mem_cons_self hworking
  · rintro (rfl | rfl)
    · exact ⟨["out"], ["main.tf"], by decide⟩
    · exact ⟨["out"], ["modules", "main.tf"], by decide⟩

theorem isSourceText_scattered {text : String} :
    text ∈ ["$$\x7b A\x7d$$\x7bB:-x\x7d", "a = \"$$\x7bB:-x\x7d\"\n"] ↔
      IsSourceText scattered ⟨"", ["out"]⟩ text := by
  have hmain : scattered.readText ⟨"", ["out", "main.tf"]⟩ =
      .ok "a = \"$$\x7bB:-x\x7d\"\n" := by
    decide +kernel
  have hmodule : scattered.readText ⟨"", ["out", "modules", "main.tf"]⟩ =
      .ok "$$\x7b A\x7d$$\x7bB:-x\x7d" := by
    decide +kernel
  simp only [IsSourceText, isSourcePath_scattered, or_and_right, exists_or, exists_eq_left, hmain,
    hmodule, Except.ok.injEq, List.mem_cons, List.not_mem_nil, or_false, eq_comm]
  exact or_comm

theorem exists_isInventory_scattered :
    HasSourceTexts scattered ⟨"", ["out"]⟩ ∧
      references ["A"] scattered ⟨"", ["out"]⟩ =
        .ok [⟨" A", some "A", true⟩, ⟨"B:-x", some "B", false⟩] ∧
      IsInventory ["A"] (IsSourceText scattered ⟨"", ["out"]⟩)
        [⟨" A", some "A", true⟩, ⟨"B:-x", some "B", false⟩] := by
  have hreadable : HasSourceTexts scattered ⟨"", ["out"]⟩ := by
    intro path hpath
    rcases isSourcePath_scattered.mp hpath with rfl | rfl
    · exact exists_of_isOk (by decide +kernel)
    · exact exists_of_isOk (by decide +kernel)
  obtain ⟨refs, hrefs, hinventory, horder, -⟩ := exists_isInventory hreadable ["A"]
  have hsame := horder _ fun text => isSourceText_scattered
  have hsorted : referencesIn ["A"] ["$$\x7b A\x7d$$\x7bB:-x\x7d", "a = \"$$\x7bB:-x\x7d\"\n"] =
      [⟨" A", some "A", true⟩, ⟨"B:-x", some "B", false⟩] := by
    have hdistinct : distinctSorted [" A", "B:-x", "B:-x"] = [" A", "B:-x"] :=
      List.mergeSort_of_pairwise (by decide +kernel)
    have hfound : (["$$\x7b A\x7d$$\x7bB:-x\x7d", "a = \"$$\x7bB:-x\x7d\"\n"].flatMap fun s =>
        (captures escapedOpening s.toList).map String.ofList) = [" A", "B:-x", "B:-x"] := by
      decide +kernel
    rw [referencesIn, hfound, hdistinct]
    decide +kernel
  rw [hsorted] at hsame
  subst hsame
  exact ⟨hreadable, hrefs, hinventory⟩

end Rollout
end Groundplan
