/-
Paths below a directory.

A relative path without double dots, seen from a directory, leads to a place inside it,
and two such paths lead to one place only if they are the same.  This is what keeps files
apart that are written below one directory, and what keeps them inside it.
-/
import Groundplan.Proofs.Storage.Growth
import Groundplan.Proofs.Text.Splitting

namespace Groundplan
namespace Storage

/-- A path that, seen from a directory, leads to something inside it. -/
structure Path.IsInner (p : Path) : Prop where
  relative : p.anchor = ""
  parts : p.parts ≠ []
  noDots : ".." ∉ p.parts

namespace Path

/-! ## Reading a path -/

/-- A component that reading a path leaves as it is. -/
structure IsComponent (s : String) : Prop where
  noSlash : '/' ∉ s.toList
  nonempty : s ≠ ""
  notDot : s ≠ "."

theorem splitOn_intercalate {parts : List String} (hne : parts ≠ [])
    (h : ∀ p ∈ parts, '/' ∉ p.toList) :
    Text.splitOn '/' ("/".intercalate parts).toList = parts.map String.toList := by
  induction parts with
  | nil => exact absurd rfl hne
  | cons p rest ih =>
    have hp : '/' ∉ p.toList := h p List.mem_cons_self
    cases rest with
    | nil =>
      rw [String.intercalate_singleton, Text.splitOn_of_not_mem hp]
      rfl
    | cons q rest =>
      have hrest := ih (List.cons_ne_nil q rest) fun r hr => h r (List.mem_cons_of_mem p hr)
      rw [String.intercalate_cons_cons, String.toList_append, String.toList_append,
        List.append_assoc]
      show Text.splitOn '/' (p.toList ++ '/' :: ("/".intercalate (q :: rest)).toList) = _
      rw [Text.splitOn_append_cons, Text.splitOn_of_not_mem hp, hrest]
      rfl

/-- Components that are joined by slashes are read back. -/
theorem parse_intercalate {parts : List String} (hne : parts ≠ [])
    (h : ∀ p ∈ parts, IsComponent p) : parse ("/".intercalate parts) = ⟨"", parts⟩ := by
  have hsplit := splitOn_intercalate hne fun p hp => (h p hp).noSlash
  have hanchor : ("/".intercalate parts).toList.takeWhile (· == '/') = [] := by
    cases hchars : ("/".intercalate parts).toList with
    | nil => rfl
    | cons c cs =>
      by_cases hc : c = '/'
      · -- A slash in front would make the first component empty.
        rw [hchars, hc, Text.splitOn, if_pos rfl] at hsplit
        cases parts with
        | nil => exact absurd rfl hne
        | cons p rest =>
          have hempty : p.toList = [] := (List.cons.inj hsplit).1.symm
          exact absurd (String.toList_eq_nil_iff.mp hempty) (h p List.mem_cons_self).nonempty
      · simp [hc]
  have hparts : (parts.filter fun p => p != "" && p != ".") = parts := by
    refine List.filter_eq_self.mpr fun p hp => ?_
    simp [(h p hp).nonempty, (h p hp).notDot]
  rw [parse, hanchor, hsplit, List.map_map]
  simp only [Function.comp_def, String.ofList_toList, List.map_id']
  rw [hparts]
  rfl

/-- A text that is the spelling of an inner path, so that it can be had back from it. -/
structure Spells (s : String) : Prop where
  inner : (parse s).IsInner
  text : "/".intercalate (parse s).parts = s

theorem spells_intercalate {parts : List String} (hne : parts ≠ [])
    (h : ∀ p ∈ parts, IsComponent p) (hdots : ".." ∉ parts) :
    Spells ("/".intercalate parts) := by
  have hparse := parse_intercalate hne h
  constructor
  · rw [hparse]
    exact ⟨rfl, hne, hdots⟩
  · rw [hparse]

theorem Spells.parse_inj {s t : String} (hs : Spells s) (ht : Spells t) (h : parse s = parse t) :
    s = t := by
  rw [← hs.text, h, ht.text]

/-! ## Joining -/

theorem join_of_isInner (root : Path) {p : Path} (h : p.IsInner) :
    root.join p = ⟨root.anchor, root.parts ++ p.parts⟩ := by
  have hrelative : p.isAbsolute = false := by
    rw [isAbsolute, h.relative]
    rfl
  rw [join, hrelative, if_neg (by decide)]

theorem parent_join (root : Path) {p : Path} (h : p.IsInner) :
    (root.join p).parent = ⟨root.anchor, root.parts ++ p.parts.dropLast⟩ := by
  rw [join_of_isInner root h, parent, List.dropLast_append_of_ne_nil h.parts]

theorem ext_of_isInner {p q : Path} (hp : p.IsInner) (hq : q.IsInner) (h : p.parts = q.parts) :
    p = q := by
  cases p
  cases q
  cases hp.relative
  cases hq.relative
  cases h
  rfl

end Path

namespace Disk

/-- Inside the directory that a path leads to, or that directory itself. -/
def IsIn (d : Disk) (root : Path) (l : Location) : Prop :=
  ∃ base, d.locate root = .ok base ∧ base <+: l

theorem IsIn.mono {d d' : Disk} {root : Path} {l : Location} (h : IsIn d root l)
    (hkeep : KeepsDirectories d d') : IsIn d' root l := by
  obtain ⟨base, hbase, hway⟩ := h
  exact ⟨base, hkeep.locate hbase, hway⟩

/-- A longer path leads on from where the shorter one leads. -/
theorem locate_append {d : Disk} {anchor : String} {a b : List String} {l : Location}
    (hb : ".." ∉ b) (h : d.locate ⟨anchor, a ++ b⟩ = .ok l) :
    ∃ base, d.locate ⟨anchor, a⟩ = .ok base ∧ l = base ++ b := by
  rw [locate, walk_append] at h
  obtain ⟨base, hbase, h⟩ := ok_of_bind h
  exact ⟨base, hbase, eq_append_of_walk hb h⟩

theorem locate_join {d : Disk} {root p : Path} {l : Location} (hp : p.IsInner)
    (h : d.locate (root.join p) = .ok l) :
    ∃ base, d.locate root = .ok base ∧ l = base ++ p.parts := by
  rw [Path.join_of_isInner root hp] at h
  exact locate_append hp.noDots h

theorem isIn_of_locate_join {d : Disk} {root p : Path} {l : Location} (hp : p.IsInner)
    (h : d.locate (root.join p) = .ok l) : IsIn d root l := by
  obtain ⟨base, hbase, rfl⟩ := locate_join hp h
  exact ⟨base, hbase, List.prefix_append _ _⟩

theorem join_inj_of_locate {d : Disk} {root p q : Path} {l : Location} (hp : p.IsInner)
    (hq : q.IsInner) (h : d.locate (root.join p) = .ok l) (h' : d.locate (root.join q) = .ok l) :
    p = q := by
  obtain ⟨base, hbase, rfl⟩ := locate_join hp h
  obtain ⟨base', hbase', heq⟩ := locate_join hq h'
  rw [hbase] at hbase'
  cases hbase'
  exact Path.ext_of_isInner hp hq (List.append_cancel_left heq)

/-- The way to a file below a directory first leads to the directory. -/
theorem isIn_or_isAbove {d : Disk} {root p : Path} {l : Location} (hp : p.IsInner)
    (h : IsAbove d (root.join p).parent l) : IsIn d root l ∨ IsAbove d root l := by
  rw [Path.parent_join root hp] at h
  obtain ⟨parts, hway, hl⟩ := h
  rcases List.prefix_or_prefix_of_prefix hway (List.prefix_append root.parts _) with hle | hge
  · exact .inr ⟨parts, hle, hl⟩
  · obtain ⟨inner, rfl⟩ := hge
    rw [List.prefix_append_right_inj] at hway
    have hnoDots : ".." ∉ inner := fun hmem =>
      hp.noDots (List.dropLast_subset _ (hway.subset hmem))
    obtain ⟨base, hbase, rfl⟩ := locate_append hnoDots hl
    exact .inl ⟨base, hbase, List.prefix_append _ _⟩

end Disk
end Storage
end Groundplan
