/-
The placeholders of a specification are reported.

A text of a specification is written as a literal, and a placeholder in it is found again
as long as no text in front of it in the same file leaves a placeholder open: the search
for a closing brace does not stop at the end of a literal.
-/
import Groundplan.Proofs.Project.Banner
import Groundplan.Proofs.Project.Fresh
import Groundplan.Proofs.Rollout.Captures
import Groundplan.Proofs.Rollout.Sources

namespace Groundplan
namespace Rollout

open Hcl Project Storage Storage.Disk

/-! ## The sources in a fresh directory -/

theorem isSourceName_fileName : ∀ name ∈ ["provider.tf", "variables.tf", "main.tf", "outputs.tf"],
    isSourceName name = true ∧ name ≠ workingDirectory := by
  decide

theorem not_isSourceName {name : String} (h : '.' ∉ name.toList) : isSourceName name = false := by
  rw [isSourceName, ← Bool.not_eq_true, List.isSuffixOf_iff_suffix]
  intro hsuffix
  exact h (hsuffix.subset List.mem_cons_self)

/-- In a directory that was empty the sources are the files of the project. -/
theorem mem_sourcePaths_of_write {d : Disk} {root path : Path} {p : Project} {paths : List Path}
    (hempty : d.IsEmptyDirectory root) (hapart : AreApart p.files)
    (hpaths : ∀ f ∈ p.files, IsModulePath (.parse f.1)) (hwrite : (write d root p).result = .ok paths) :
    path ∈ sourcePaths (write d root p).disk root ↔ ∃ f ∈ p.files, path = target root f := by
  obtain ⟨base, hbase, hdirectory, hnothing⟩ := hempty
  have hkeep := (changesOnWay_writeFiles root p.files d).1
  rw [← disk_write] at hkeep
  have hwritten := ((writesInOrder_write root hapart d).succeeded paths hwrite).2
  rw [mem_sourcePaths (hkeep.locate hbase) (hkeep.directory base hdirectory)]
  constructor
  · rintro ⟨parts, rfl, hne, hentry, hname, hworking⟩
    obtain ⟨e, he⟩ := Option.isSome_iff_exists.mp hentry
    have hstrict : base ++ parts ≠ base := fun h => hne (List.append_right_eq_self.mp h)
    obtain ⟨f, hf, parts', hway, heq⟩ := exists_of_fresh hapart hbase hnothing
      (List.prefix_append base parts) hstrict he
    cases List.append_cancel_left heq
    obtain ⟨above, name, hparse, -, habove⟩ := hpaths f hf
    refine ⟨f, hf, ?_⟩
    rw [target, Path.join_of_isInner root (hapart.inner f hf), hparse]
    rw [hparse] at hway
    rcases List.prefix_concat_iff.mp hway with rfl | hway
    · rfl
    · -- The directories on the way are not named like sources.
      have hlast : parts.getLastD "" ∈ parts := by
        rw [List.getLastD_eq_getLast?, List.getLast?_eq_some_getLast hne]
        exact List.getLast_mem hne
      rw [not_isSourceName (habove _ (hway.subset hlast))] at hname
      cases hname
  · rintro ⟨f, hf, rfl⟩
    have hinner := hapart.inner f hf
    obtain ⟨above, name, hparse, hname, habove⟩ := hpaths f hf
    obtain ⟨l, hl, hfile⟩ := entry_of_read (hwritten.holds f hf)
    obtain ⟨base', hbase', rfl⟩ := locate_join hinner hl
    have hsame : base' = base := Except.ok.inj (hbase'.symm.trans (hkeep.locate hbase))
    rw [hsame] at hfile
    obtain ⟨hsource, hworking⟩ := isSourceName_fileName name hname
    refine ⟨(Path.parse f.1).parts, Path.join_of_isInner root hinner, hinner.parts, ?_, ?_, ?_⟩
    · rw [hfile]
      rfl
    · rw [hparse, List.getLastD_concat]
      exact hsource
    · rw [hparse, List.mem_append, List.mem_singleton, not_or]
      exact ⟨fun hmem => habove _ hmem (by decide), hworking.symm⟩

/-! ## Reading the sources -/

theorem readText_of_read {d : Disk} {p : Path} {text : String}
    (h : d.read p = .ok (Text.Utf8.encode text)) :
    d.readText p = .ok (String.ofList (Text.unifyNewlines text.toList)) := by
  rw [readText, h, ok_bind, Text.Utf8.decode_encode]
  rfl

/-- What is reported comes from the texts of the files of the project, and from nothing else. -/
theorem exists_references {d : Disk} {root : Path} {p : Project} {paths : List Path}
    (hempty : d.IsEmptyDirectory root) (hapart : AreApart p.files)
    (hpaths : ∀ f ∈ p.files, IsModulePath (.parse f.1)) (hwrite : (write d root p).result = .ok paths)
    (environment : List String) :
    ∃ texts, references environment (write d root p).disk root =
        .ok (referencesIn environment texts) ∧
      ∀ text, text ∈ texts ↔
        ∃ f ∈ p.files, text = String.ofList (Text.unifyNewlines f.2.toList) := by
  have hsources : ∀ path, path ∈ sourcePaths (write d root p).disk root ↔
      ∃ f ∈ p.files, path = target root f := fun _ =>
    mem_sourcePaths_of_write hempty hapart hpaths hwrite
  have hwritten := ((writesInOrder_write root hapart d).succeeded paths hwrite).2
  have hread : ∀ f ∈ p.files, (write d root p).disk.readText (target root f) =
      .ok (String.ofList (Text.unifyNewlines f.2.toList)) := fun f hf =>
    readText_of_read (hwritten.holds f hf)
  have hreadable : ∀ path ∈ sourcePaths (write d root p).disk root,
      ∃ text, (write d root p).disk.readText path = .ok text := by
    intro path hpath
    obtain ⟨f, hf, rfl⟩ := (hsources path).mp hpath
    exact ⟨_, hread f hf⟩
  obtain ⟨texts, htexts⟩ := exists_readAll hreadable
  obtain ⟨hall, honly⟩ := mem_of_readAll htexts
  refine ⟨texts, ?_, fun text => ⟨fun htext => ?_, ?_⟩⟩
  · rw [references, htexts]
    rfl
  · obtain ⟨path, hpath, hpathText⟩ := honly text htext
    obtain ⟨f, hf, rfl⟩ := (hsources path).mp hpath
    exact ⟨f, hf, Except.ok.inj (hpathText.symm.trans (hread f hf))⟩
  · rintro ⟨f, hf, rfl⟩
    obtain ⟨text, htext, hpath⟩ := hall _ ((hsources _).mpr ⟨f, hf, rfl⟩)
    rw [hread f hf] at hpath
    cases hpath
    exact htext

/-! ## Reporting -/

/-- A placeholder in a text is found in the file of the text, unless a text in front of it
leaves something open. -/
theorem exists_capture_of_wraps {ps : List Spelling} {file v name : String}
    (hfile : Wraps ps file.toList) (hv : .literal v ∈ ps)
    (hclear : ∀ q ∈ ps.takeWhile (· ≠ .literal v), Closes q.text)
    (hname : isVariableName name = true) (hmention : Mentions v name) :
    ∃ body ∈ captures escapedMark (String.ofList (Text.unifyNewlines file.toList)).toList,
      variableName (String.ofList body) = some name := by
  obtain ⟨before, after, rfl, hbefore⟩ := List.eq_append_cons_of_mem hv
  have hfirst : (before ++ .literal v :: after).takeWhile (· ≠ .literal v) = before := by
    rw [List.takeWhile_append_of_pos, List.takeWhile_cons_of_neg (by simp), List.append_nil]
    intro q hq
    exact decide_eq_true fun heq => hbefore (heq ▸ hq)
  rw [hfirst] at hclear
  obtain ⟨front, behind, htext, hfront⟩ := hfile.split
  have hsealed := hfront.sealed hclear
  rw [String.toList_ofList, htext, Text.unifyNewlines_append hsealed.noReturn]
  show ∃ body ∈ captures escapedMark (front ++ Text.unifyNewlines ((quote v).toList ++ behind)), _
  rw [Text.unifyNewlines_append (break_not_mem_quote (.inr rfl) v)]
  exact exists_capture hname hmention hsealed _

/-- Every placeholder for a variable is reported, and marked as set if and only if the
variable is, provided that the texts in front of it in its file and the part of its own text
in front of it close what they open. -/
theorem placeholder_reported {spec : Spec} {options : Options} {p : Project} {d : Disk}
    {root : Path} {paths : List Path} {doc : Document} {v name : String} (accepted : spec.Accepted)
    (compiled : (compile .builtIn spec options).result = .ok p) (empty : d.IsEmptyDirectory root)
    (written : (write d root p).result = .ok paths) (placed : IsPlaced spec v doc)
    (named : isVariableName name = true) (mentioned : Mentions v name)
    (clear : ∀ q ∈ (fileSpellings spec.metadata.name doc).takeWhile (· ≠ .literal v), Closes q.text)
    (environment : List String) :
    ∃ refs, references environment (write d root p).disk root = .ok refs ∧
      ∃ r ∈ refs, r.name = some name ∧ r.isSet = environment.contains name := by
  obtain ⟨s, hs⟩ := compiled_of_builtIn compiled
  have hnamed : spec.Named := ⟨accepted.names, accepted.distinct, accepted.types⟩
  obtain ⟨texts, hrefs, hmem⟩ := exists_references empty (areApart_of_compiled hnamed hs)
    (isModulePath_of_compiled hnamed hs) written environment
  obtain ⟨f, hf, hwraps⟩ := placed.exists_file accepted compiled
  obtain ⟨body, hbody, hvariable⟩ := exists_capture_of_wraps hwraps
    placed.mem_fileSpellings clear named mentioned
  have hmember : Reference.ofText environment (String.ofList body) ∈ referencesIn environment texts :=
    mem_referencesIn.mpr ⟨_, (hmem _).mpr ⟨f, hf, rfl⟩, body, hbody, rfl⟩
  rw [ofText_of_variableName hvariable] at hmember
  exact ⟨_, hrefs, _, hmember, rfl, rfl⟩

/-- A tag with a placeholder that has a default, and a name that is in the way of nothing. -/
def labelled : Spec :=
  { metadata := { name := "a $\x7bb\x7d", tags := [("owner", .text "team $\x7bTEAM:-core\x7d")] } }

theorem labelled_accepted : labelled.Accepted where
  names := by decide
  distinct := by decide
  types := by decide
  tags := by decide
  environments := by decide

theorem check_labelled : check labelled = .ok defaultSubnets :=
  check_ok_iff.mpr ⟨rfl, by decide, ofCidr_default⟩

/-- A disk with an empty directory on it. -/
def vacant : Disk := { entries := [(["out"], .directory)] }

theorem vacant_isEmptyDirectory : vacant.IsEmptyDirectory ⟨"", ["out"]⟩ := by
  refine ⟨["out"], rfl, rfl, fun l hway hne => ?_⟩
  have hroot : l ≠ [] := by
    rintro rfl
    exact absurd (List.prefix_nil.mp hway) (List.cons_ne_nil _ _)
  rw [entry?_of_ne_nil vacant hroot, vacant, List.lookup_cons, beq_false_of_ne hne]
  rfl

theorem result_write_vacant {p : Project} (h : p.modules = []) :
    (write vacant ⟨"", ["out"]⟩ p).result =
      .ok [⟨"", ["out", "provider.tf"]⟩, ⟨"", ["out", "variables.tf"]⟩, ⟨"", ["out", "main.tf"]⟩] := by
  rw [result_write, files_of_no_modules h]
  rfl

theorem placeholder_reported_labelled : ∃ p paths refs,
    (compile .builtIn labelled {}).result = .ok p ∧
      (write vacant ⟨"", ["out"]⟩ p).result = .ok paths ∧
        references ["TEAM"] (write vacant ⟨"", ["out"]⟩ p).disk ⟨"", ["out"]⟩ = .ok refs ∧
          ∃ r ∈ refs, r.name = some "TEAM" ∧ r.isSet = true := by
  have hcompiled : ∃ p, (compile .builtIn labelled {}).result = .ok p :=
    exists_compiled check_labelled (fun h => nomatch h) (by decide) (by decide)
  obtain ⟨p, hp⟩ := hcompiled
  obtain ⟨s, hs⟩ := compiled_of_builtIn hp
  have hmodules : p.modules = [] := List.forall₂_nil_left_iff.mp hs.modules
  have hwritten := result_write_vacant hmodules
  have hplaced : IsPlaced labelled "team $\x7bTEAM:-core\x7d" (inputsDocument labelled.metadata) :=
    .tag (List.mem_singleton_self _)
  have hmention : Mentions "team $\x7bTEAM:-core\x7d" "TEAM" :=
    ⟨"team ", ":-core", "", by decide, by decide, .inr ⟨_, rfl⟩, by decide⟩
  have hclear : ∀ q ∈ (fileSpellings labelled.metadata.name (inputsDocument labelled.metadata)).takeWhile
      (· ≠ .literal "team $\x7bTEAM:-core\x7d"), Closes q.text := by
    decide
  obtain ⟨refs, hrefs, hreported⟩ := placeholder_reported labelled_accepted hp
    vacant_isEmptyDirectory hwritten hplaced (by decide) hmention hclear ["TEAM"]
  exact ⟨p, _, refs, hp, hwritten, hrefs, hreported⟩

/-- Two tags, the first of which leaves a mark open. -/
def unclosed : Spec :=
  { metadata := { tags := [("a", .text "$\x7b"), ("b", .text "$\x7bDB_PASSWORD\x7d")] } }

/-- The names of the placeholders that are found in a document, if it has a text. -/
def foundNames (d : Document) : Option (List (Option String)) :=
  match documentLines none d.items with
  | .ok lines => some ((captures escapedMark (Text.unifyNewlines (linesText lines))).map
      fun body => variableName (String.ofList body))
  | .error _ => none

theorem foundNames_provider_unclosed : foundNames (providerDocument unclosed.metadata) = some [] := by
  simp only [foundNames, providerDocument, documentLines, itemLines, blockLines, bodyLines, nested,
    Hcl.set]
  decide +kernel

theorem foundNames_inputs_unclosed :
    foundNames (inputsDocument unclosed.metadata) = some [none] := by
  simp only [foundNames, inputsDocument, rootVariable, documentLines, itemLines, blockLines,
    bodyLines, nested, Hcl.set]
  decide +kernel

/-- What is declared where there are no workloads mentions no variable of the environment. -/
theorem foundNames_main_empty :
    foundNames (mainDocument defaultCidr defaultSubnets []) = some [] := by
  simp only [foundNames, mainDocument, networkModule, outputBlock, commonTags, List.flatMap_nil,
    List.map_nil, List.append_nil, List.cons_append, List.nil_append, documentLines, itemLines,
    blockLines, bodyLines, Hcl.set]
  decide +kernel

/-- What a file holds behind its banner decides what is found in it. -/
theorem foundNames_of_isTextOf {d : Document} {project text : String} {names : List (Option String)}
    (hproject : isStill (titleLine project) = true) (hblock : HasBlock d.items)
    (htext : IsTextOf project d text) (h : foundNames d = some names) :
    (captures escapedMark (Text.unifyNewlines text.toList)).map
      (fun body => variableName (String.ofList body)) = names := by
  have hbanner : isStill (bannerText project) = true :=
    isStill_append (isStill_append (isStill_append hproject (by decide)) (by decide)) (by decide)
  obtain ⟨hdollar, hreturn⟩ := isStill_iff.mp hbanner
  obtain ⟨lines, hlines, rfl⟩ := render_ok htext (hblock.append_left [banner project, .blank])
  have hitems : d.items ≠ [] := by
    obtain ⟨_, _, _, hmem⟩ := hblock
    exact List.ne_nil_of_mem hmem
  obtain ⟨rest, hrest, rfl⟩ := documentLines_banner hitems hlines
  rw [foundNames, hrest] at h
  rw [linesString_banner, String.toList_append, Text.unifyNewlines_append hreturn,
    captures_append_of_not_mem hdollar, linesString, String.toList_ofList]
  exact Option.some.inj h

/-- The second tag is a placeholder for a variable, and it closes what it opens.  The mark of
the first tag takes its brace all the same, and nothing that is found in the files of the two
has the name. -/
theorem not_reported_unclosed : ∃ p paths, (compile .builtIn unclosed {}).result = .ok p ∧
    (write vacant ⟨"", ["out"]⟩ p).result = .ok paths ∧
      IsPlaced unclosed "$\x7bDB_PASSWORD\x7d" (inputsDocument unclosed.metadata) ∧
        Mentions "$\x7bDB_PASSWORD\x7d" "DB_PASSWORD" ∧
          ∀ environment, ∃ refs,
            references environment (write vacant ⟨"", ["out"]⟩ p).disk ⟨"", ["out"]⟩ = .ok refs ∧
              ∀ r ∈ refs, r.name ≠ some "DB_PASSWORD" := by
  have hcheck : check unclosed = .ok defaultSubnets := check_ok_iff.mpr ⟨rfl, by decide, ofCidr_default⟩
  obtain ⟨p, hp⟩ : ∃ p, (compile .builtIn unclosed {}).result = .ok p :=
    exists_compiled hcheck (fun h => nomatch h) (by decide) (by decide)
  obtain ⟨s, hs⟩ := compiled_of_builtIn hp
  obtain rfl : s = defaultSubnets := Except.ok.inj (hs.checked.symm.trans hcheck)
  have hmodules : p.modules = [] := List.forall₂_nil_left_iff.mp hs.modules
  have hnamed : unclosed.Named := ⟨by decide, by decide, by decide⟩
  have hwritten := result_write_vacant hmodules
  have hstill : isStill (titleLine p.name) = true := by
    rw [hs.name]
    decide
  have hprovider := foundNames_of_isTextOf hstill ⟨_, _, _, List.mem_cons_self⟩ hs.provider
    foundNames_provider_unclosed
  have hinputs := foundNames_of_isTextOf hstill ⟨_, _, _, List.mem_cons_self⟩ hs.inputs
    foundNames_inputs_unclosed
  have hmain := foundNames_of_isTextOf hstill
    ⟨_, _, _, List.mem_cons_of_mem _ List.mem_cons_self⟩ hs.main foundNames_main_empty
  have hunnamed : ∀ f ∈ p.files, some "DB_PASSWORD" ∉
      (captures escapedMark (Text.unifyNewlines f.2.toList)).map
        fun body => variableName (String.ofList body) := by
    rw [files_of_no_modules hmodules]
    refine List.forall_mem_cons.mpr ⟨?_, List.forall_mem_cons.mpr ⟨?_, List.forall_mem_singleton.mpr ?_⟩⟩
    · rw [hprovider]
      exact List.not_mem_nil
    · rw [hinputs]
      exact fun h => nomatch List.mem_singleton.mp h
    · rw [hmain]
      exact List.not_mem_nil
  refine ⟨p, _, hp, hwritten, .tag (List.mem_cons_of_mem _ (List.mem_singleton_self _)),
    ⟨"", "", "", by decide, by decide, .inl rfl, by decide⟩, fun environment => ?_⟩
  obtain ⟨texts, hrefs, htexts⟩ := exists_references vacant_isEmptyDirectory
    (areApart_of_compiled hnamed hs) (isModulePath_of_compiled hnamed hs) hwritten environment
  refine ⟨_, hrefs, fun r hr hname => ?_⟩
  obtain ⟨source, hsource, body, hbody, rfl⟩ := mem_referencesIn.mp hr
  obtain ⟨f, hf, rfl⟩ := (htexts source).mp hsource
  rw [String.toList_ofList] at hbody
  refine hunnamed f hf (List.mem_map.mpr ⟨body, hbody, ?_⟩)
  rw [← hname, ofText_eq]

end Rollout
end Groundplan
