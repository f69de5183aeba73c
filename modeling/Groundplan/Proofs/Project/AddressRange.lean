/-
The address range of the network as it is written.

The subnets are cut out of the range that was read and written as ranges are, while the
range itself is written as it was spelled.  So the two agree on the network they speak of,
but only one of the spellings of a range is in the notation of ranges.
-/
import Groundplan.Proofs.Hcl.Paragraphs
import Groundplan.Proofs.Network.Layout
import Groundplan.Proofs.Project.Integrity

namespace Groundplan

namespace Hcl

open Text Rows

/-! ## Rows in front of the first block -/

/-- A row that is empty or a comment. -/
def IsRemark (row : String) : Prop :=
  row = "" ∨ ∃ rest, row.toList = '#' :: rest ∧ '\n' ∉ rest

theorem IsRemark.newline_not_mem {row : String} (h : IsRemark row) : '\n' ∉ row.toList := by
  obtain rfl | ⟨rest, hrow, hrest⟩ := h
  · exact List.not_mem_nil
  · rw [hrow, List.mem_cons, not_or]
    exact ⟨by decide, hrest⟩

theorem isRemark_of_itemLines {item : Item} (hitem : item.isComment = true ∨ item.isBlank = true)
    {lines : List String} (h : itemLines item = .ok lines) : ∀ line ∈ lines, IsRemark line := by
  intro line hline
  match item with
  | .comment text =>
    cases h
    obtain ⟨rest, hshape, hrest⟩ := mem_commentLines hline
    exact .inr ⟨rest, hshape, hrest.newline_not_mem⟩
  | .blank =>
    cases h
    cases hline
  | .attribute _ _ | .block _ _ _ => rcases hitem with hitem | hitem <;> cases hitem

theorem isRemark_of_documentLines {items : List Item}
    (hitems : ∀ i ∈ items, i.isComment = true ∨ i.isBlank = true) {previous : Option Item}
    {lines : List String} (h : documentLines previous items = .ok lines) :
    ∀ line ∈ lines, IsRemark line := by
  induction items generalizing previous lines with
  | nil =>
    cases h
    exact fun _ hline => nomatch hline
  | cons item items ih =>
    rw [documentLines] at h
    obtain ⟨inner, hinner, h⟩ := ok_of_bind h
    obtain ⟨after, hafter, h⟩ := ok_of_bind h
    cases h
    intro line hline
    rcases List.mem_append.mp hline with hline | hline
    · rcases List.mem_append.mp hline with hline | hline
      · split at hline
        · exact .inl (List.mem_singleton.mp hline)
        · cases hline
      · exact isRemark_of_itemLines (hitems item List.mem_cons_self) hinner line hline
    · exact ih (fun i hi => hitems i (List.mem_cons_of_mem item hi)) hafter line hline

end Hcl

namespace Project

open Hcl Hcl.Rows Text

/-! ## The block of the network -/

/-- The rows of the module of the network. -/
def networkRows (cidr : String) (s : Network.Subnets) : List String :=
  ["module \"vpc\" \x7b",
    "  source = \"terraform-aws-modules/vpc/aws\"",
    "",
    "  name = \"$\x7bvar.project_name\x7d-$\x7bvar.environment\x7d\"",
    "  cidr = " ++ quote cidr,
    "",
    "  azs             = [\"$\x7bvar.region\x7da\", \"$\x7bvar.region\x7db\", \"$\x7bvar.region\x7dc\"]",
    "  private_subnets = " ++ listText (s.privateRanges.map Network.Range.toText),
    "  public_subnets  = " ++ listText (s.publicRanges.map Network.Range.toText),
    "",
    "  enable_nat_gateway = true",
    "  single_nat_gateway = true",
    "",
    "  tags = local.common_tags",
    "\x7d"]

theorem newline_not_mem_networkRows (cidr : String) (s : Network.Subnets) :
    ∀ row ∈ networkRows cidr s, '\n' ∉ row.toList := by
  have hvalue : ∀ name value : String, '\n' ∉ name.toList → '\n' ∉ value.toList →
      '\n' ∉ (name ++ value).toList := by
    intro name value hname hv
    rw [String.toList_append, List.mem_append, not_or]
    exact ⟨hname, hv⟩
  simp only [networkRows, List.forall_mem_cons]
  refine ⟨by decide, by decide, by decide, by decide,
    hvalue _ _ (by decide) (break_not_mem_quote (.inl rfl) cidr), by decide, by decide,
    hvalue _ _ (by decide) (newline_not_mem_listText _),
    hvalue _ _ (by decide) (newline_not_mem_listText _), by decide, by decide, by decide,
    by decide, by decide, by decide, fun _ h => nomatch h⟩

theorem renderAttributes_range {name : Value} {text : String} (cidr : String)
    (hname : renderValue 1 name = .ok text) (hline : '\n' ∉ text.toList) :
    renderAttributes 1 [⟨"name", name⟩, ⟨"cidr", .text cidr⟩] =
      .ok ["  name = " ++ text, "  cidr = " ++ quote cidr] := by
  have hvalues : List.Forall₂ (fun (a : Attribute) text => renderValue 1 a.value = .ok text ∧
      '\n' ∉ text.toList) [⟨"name", name⟩, ⟨"cidr", .text cidr⟩] [text, quote cidr] :=
    .cons ⟨hname, hline⟩ (.cons ⟨by rw [renderValue], break_not_mem_quote (.inl rfl) cidr⟩ .nil)
  have hfirst : indent 1 ++ padName (maxLength ["name", "cidr"]) "name" ++ " = " = "  name = " := by
    decide
  have hsecond : indent 1 ++ padName (maxLength ["name", "cidr"]) "cidr" ++ " = " = "  cidr = " := by
    decide
  rw [renderAttributes_aligned (List.cons_ne_nil _ _) hvalues]
  simp only [alignedLines, List.map_cons, List.map_nil, List.zip_cons_cons, List.zip_nil_left,
    hfirst, hsecond]

theorem renderAttributes_zones {zones : Value} {text : String} (privates publics : List String)
    (hzones : renderValue 1 zones = .ok text) (hline : '\n' ∉ text.toList) :
    renderAttributes 1 [⟨"azs", zones⟩, ⟨"private_subnets", .list (privates.map .text)⟩,
        ⟨"public_subnets", .list (publics.map .text)⟩] =
      .ok ["  azs             = " ++ text, "  private_subnets = " ++ listText privates,
        "  public_subnets  = " ++ listText publics] := by
  have hvalues : List.Forall₂ (fun (a : Attribute) text => renderValue 1 a.value = .ok text ∧
        '\n' ∉ text.toList)
      [⟨"azs", zones⟩, ⟨"private_subnets", .list (privates.map .text)⟩,
        ⟨"public_subnets", .list (publics.map .text)⟩]
      [text, listText privates, listText publics] :=
    .cons ⟨hzones, hline⟩
      (.cons ⟨renderValue_texts 1 privates, newline_not_mem_listText privates⟩
        (.cons ⟨renderValue_texts 1 publics, newline_not_mem_listText publics⟩ .nil))
  have hfirst : indent 1 ++ padName (maxLength ["azs", "private_subnets", "public_subnets"]) "azs" ++
      " = " = "  azs             = " := by decide
  have hsecond : indent 1 ++
      padName (maxLength ["azs", "private_subnets", "public_subnets"]) "private_subnets" ++ " = " =
        "  private_subnets = " := by decide
  have hthird : indent 1 ++
      padName (maxLength ["azs", "private_subnets", "public_subnets"]) "public_subnets" ++ " = " =
        "  public_subnets  = " := by decide
  rw [renderAttributes_aligned (List.cons_ne_nil _ _) hvalues]
  simp only [alignedLines, List.map_cons, List.map_nil, List.zip_cons_cons, List.zip_nil_left,
    hfirst, hsecond, hthird]

theorem itemLines_networkModule (cidr : String) (s : Network.Subnets) :
    itemLines (networkModule cidr s) = .ok (networkRows cidr s) := by
  have hname : renderValue 1 (.template (slot "var.project_name" ++ "-" ++ slot "var.environment")) =
      .ok "\"$\x7bvar.project_name\x7d-$\x7bvar.environment\x7d\"" := rfl
  have hzones : renderValue 1
        (.list (["a", "b", "c"].map fun zone => .template (slot "var.region" ++ zone))) =
      .ok "[\"$\x7bvar.region\x7da\", \"$\x7bvar.region\x7db\", \"$\x7bvar.region\x7dc\"]" := rfl
  have hsource : renderAttributes 1 [⟨"source", .text "terraform-aws-modules/vpc/aws"⟩] =
      .ok ["  source = \"terraform-aws-modules/vpc/aws\""] := rfl
  have hrange := renderAttributes_range cidr hname (by decide)
  have hsubnets := renderAttributes_zones (s.privateRanges.map Network.Range.toText)
    (s.publicRanges.map Network.Range.toText) hzones (by decide)
  have hswitches : renderAttributes 1
      [⟨"enable_nat_gateway", .bool true⟩, ⟨"single_nat_gateway", .bool true⟩] =
        .ok ["  enable_nat_gateway = true", "  single_nat_gateway = true"] := rfl
  have htags : renderAttributes 1 [⟨"tags", ref "local.common_tags"⟩] =
      .ok ["  tags = local.common_tags"] := rfl
  rw [List.map_map, List.map_map] at hsubnets
  have hbody : bodyLines 1 none [] _ = .ok _ := bodyLines_attributes_blank rfl hsource
    (bodyLines_attributes_blank rfl hrange (bodyLines_attributes_blank rfl hsubnets
      (bodyLines_attributes_blank rfl hswitches (bodyLines_attributes rfl htags))))
  have hhead : indent 0 ++ blockHead "module" ["vpc"] ++ " \x7b" = "module \"vpc\" \x7b" := by decide
  rw [networkModule, itemLines, blockLines]
  · refine (congrArg (· >>= _) hbody).trans ?_
    rw [ok_bind, hhead]
    rfl
  · exact List.cons_ne_nil _ _

/-- The rows of the root module begin with remarks, and behind them is the network. -/
theorem exists_rows_main {project cidr text : String} {s : Network.Subnets} {bound : List Bound}
    (h : IsTextOf project (mainDocument cidr s bound) text) :
    ∃ front back, rows text = front ++ networkRows cidr s ++ back ∧ ∀ row ∈ front, IsRemark row := by
  obtain ⟨lines, hlines, hrows⟩ := linesRows_prefix h
  obtain ⟨front, rest, hfront, hrest, rfl⟩ :=
    documentLines_append_ok (a := [banner project, .blank, .comment "Shared networking"]) hlines
  obtain ⟨inner, hinner, hrest⟩ := ok_of_bind hrest
  obtain ⟨after, -, hrest⟩ := ok_of_bind hrest
  cases hrest
  rw [itemLines_networkModule] at hinner
  cases hinner
  have hremarks := isRemark_of_documentLines (fun i hi => ?_) hfront
  · rw [linesRows_append, linesRows_append, linesRows_append,
      linesRows_of_not_mem fun row hrow => (hremarks row hrow).newline_not_mem,
      linesRows_of_not_mem (newline_not_mem_networkRows cidr s)] at hrows
    obtain ⟨back, hrows⟩ := hrows
    refine ⟨front, linesRows after ++ back, hrows.symm.trans ?_, hremarks⟩
    simp only [List.append_assoc]
    rfl
  · simp only [List.mem_cons, List.not_mem_nil, or_false] at hi
    rcases hi with rfl | rfl | rfl
    · exact .inl rfl
    · exact .inr rfl
    · exact .inl rfl

/-! ## The range -/

/-- What the root module says about its network: the module of the network is the first block,
its range is spelled in one of the ways in which ranges can be, and stands between the quotes as
it is; the subnets that are listed below it lie in the range that is spelled there, and no other
range has this text. -/
structure DeclaresRange (main cidr : String) (r : Network.Range) (s : Network.Subnets) : Prop where
  rows : ∃ front back, rows main = front ++ networkRows cidr s ++ back ∧ ∀ row ∈ front, IsRemark row
  verbatim : quote cidr = "\"" ++ cidr ++ "\""
  read : Network.parse cidr = .ok r
  version4 : r.IsVersion4
  length : r.length ≤ 17
  layout : Network.IsLayout r s
  spelling : Network.IsSpelling r cidr
  unambiguous : ∀ r', r'.IsVersion4 → r'.length ≤ 32 → cidr = r'.toText → r' = r

theorem quote_of_spells {cidr : String} {r : Network.Range} (h : Network.Spells cidr r) :
    quote cidr = "\"" ++ cidr ++ "\"" := by
  refine quote_of_isVerbatim fun c hc => ?_
  have hraw : ∀ d : Char, d.toNat < 46 ∨ 57 < d.toNat → c ≠ d := by
    rintro d hd rfl
    rcases Network.mem_of_spells h hc with rfl | rfl | hdigit
    · exact absurd hd (by decide)
    · exact absurd hd (by decide)
    · omega
  exact ⟨⟨hraw _ (by decide), hraw _ (by decide), hraw _ (by decide), hraw _ (by decide),
    hraw _ (by decide)⟩, hraw _ (by decide)⟩

/-- Every compiled project declares the range of its network. -/
theorem declaresRange_of_compile {l : Module.Library} {spec : Spec} {options : Options} {p : Project}
    (h : (compile l spec options).result = .ok p) :
    ∃ r s, DeclaresRange p.root.main (cidrOf spec) r s := by
  obtain ⟨s, hs⟩ := compiled_of_compile h
  obtain ⟨r, hr, hversion, hlength, hlayout⟩ :=
    Network.isLayout_of_ofCidr (check_ok_iff.mp hs.checked).2.2
  have hspells := (Network.parse_ok_iff.mp ⟨hr, hversion.bits⟩).2
  exact ⟨r, s,
    { rows := exists_rows_main hs.main
      verbatim := quote_of_spells hspells
      read := hr
      version4 := hversion
      length := hlength
      layout := hlayout
      spelling := Network.isSpelling_of_spells hversion.bits (by omega) hspells
      unambiguous := fun _ => Network.eq_of_toText hr }⟩

/-- A specification with a mask behind the address. -/
def masked : Spec := { resources := { networking := some { cidr := some "10.0.0.0/255.255.0.0" } } }

theorem exists_compiled_masked : ∃ p, (compile .builtIn masked {}).result = .ok p := by
  have hsame : check masked = check hostile := rfl
  exact exists_compiled (hsame.trans check_hostile) (fun h => nomatch h) (by decide) (by decide)

theorem declaresRange_of_compile_masked :
    ∃ p r s, (compile .builtIn masked {}).result = .ok p ∧
      DeclaresRange p.root.main "10.0.0.0/255.255.0.0" r s := by
  obtain ⟨p, hp⟩ := exists_compiled_masked
  obtain ⟨r, s, h⟩ := declaresRange_of_compile hp
  exact ⟨p, r, s, hp, h⟩

/-- A mask is accepted behind the address, and written as it is: what stands there is the text
of no range. -/
theorem range_not_canonical_masked :
    ∃ p, (compile .builtIn masked {}).result = .ok p ∧
      "  cidr = \"10.0.0.0/255.255.0.0\"" ∈ rows p.root.main ∧
        ∀ r : Network.Range, r.IsVersion4 → r.length ≤ 32 → "10.0.0.0/255.255.0.0" ≠ r.toText := by
  obtain ⟨p, hp⟩ := exists_compiled_masked
  obtain ⟨s, hs⟩ := compiled_of_compile hp
  obtain ⟨front, back, hrows, -⟩ := exists_rows_main hs.main
  refine ⟨p, hp, ?_, fun r hversion hlength htext => ?_⟩
  · have hrow : "  cidr = \"10.0.0.0/255.255.0.0\"" ∈ networkRows (cidrOf masked) s := by
      simp only [networkRows, List.mem_cons]
      exact .inr (.inr (.inr (.inr (.inl (by decide)))))
    rw [hrows]
    exact List.mem_append_left _ (List.mem_append_right _ hrow)
  · have hread : Network.parse "10.0.0.0/255.255.0.0" = .ok ⟨32, 0x0a000000, 16, none⟩ := by decide
    rw [Network.eq_of_toText hread hversion hlength htext] at htext
    exact absurd htext (by decide)

end Project
end Groundplan
