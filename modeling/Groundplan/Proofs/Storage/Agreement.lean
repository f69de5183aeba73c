/-
Disks that are the same but for some locations.

A step of the disk looks at the directories that its path leads through and at the place
it leads to, and nowhere else.  So on two disks that differ only at locations that a path
avoids, the step has the same result, and what it leaves differs only there.
-/
import Groundplan.Proofs.Storage.Growth

namespace Groundplan
namespace Storage
namespace Disk

variable {region : Location → Prop} {cwd : Location} {d d' : Disk} {p : Path} {l : Location}

/-- Two disks have the same entries off a region, and relative paths start at one place. -/
structure AgreeOff (region : Location → Prop) (cwd : Location) (d d' : Disk) : Prop where
  left : d.cwd = cwd
  right : d'.cwd = cwd
  entry : ∀ l, ¬region l → d'.entry? l = d.entry? l

/-! ## Where a path leads by its components -/

/-- Where a path starts. -/
def start (cwd : Location) (p : Path) : Location := if p.isAbsolute then [] else cwd

/-- The place that the components of a path name, whatever stands there and on the way. -/
def place (cwd : Location) (p : Path) : Location := p.parts.foldl enter (start cwd p)

/-- Neither the place of a path nor one on the way to it lies in a region. -/
def Avoids (region : Location → Prop) (cwd : Location) (p : Path) : Prop :=
  ∀ parts, parts <+: p.parts → ¬region (parts.foldl enter (start cwd p))

theorem Avoids.place (h : Avoids region cwd p) : ¬region (Disk.place cwd p) :=
  h p.parts (List.prefix_refl _)

theorem place_of_locate (hcwd : d.cwd = cwd) (h : d.locate p = .ok l) : l = place cwd p := by
  rw [locate, hcwd] at h
  exact eq_foldl_enter_of_walk h

theorem AgreeOff.walk (h : AgreeOff region cwd d d') {from_ : Location} {parts : List String}
    (havoids : ∀ front, front <+: parts → ¬region (front.foldl enter from_)) :
    d'.walk from_ parts = d.walk from_ parts := by
  induction parts generalizing from_ with
  | nil => rfl
  | cons part parts ih =>
    have hrest : d'.walk (enter from_ part) parts = d.walk (enter from_ part) parts := by
      refine ih fun front hfront => ?_
      exact havoids (part :: front) (List.cons_prefix_cons.mpr ⟨rfl, hfront⟩)
    rw [walk_cons, walk_cons, h.entry from_ (havoids [] List.nil_prefix), hrest]

theorem AgreeOff.locate (h : AgreeOff region cwd d d') (hp : Avoids region cwd p) :
    d'.locate p = d.locate p := by
  rw [Disk.locate, Disk.locate, h.left, h.right]
  exact h.walk hp

theorem AgreeOff.isDirectory (h : AgreeOff region cwd d d') (hp : Avoids region cwd p) :
    d'.isDirectory p = d.isDirectory p := by
  rw [Disk.isDirectory, Disk.isDirectory, stat?, stat?, h.locate hp]
  cases hl : d.locate p with
  | error e => rfl
  | ok l =>
    dsimp only
    rw [place_of_locate h.left hl, h.entry _ hp.place]

/-! ## Steps -/

/-- What a step comes to on two disks that agree off a region. -/
inductive AgreeOn (region : Location → Prop) (cwd : Location) :
    Except Fault Disk → Except Fault Disk → Prop
  | ok {d d' : Disk} : AgreeOff region cwd d d' → AgreeOn region cwd (.ok d) (.ok d')
  | error (e : Fault) : AgreeOn region cwd (.error e) (.error e)

theorem AgreeOff.put (h : AgreeOff region cwd d d') (hl : l ≠ []) (e : Entry) :
    AgreeOff region cwd (d.put l e) (d'.put l e) := by
  refine ⟨h.left, h.right, fun k hk => ?_⟩
  by_cases hkl : k = l
  · rw [hkl, entry?_put_self d' hl, entry?_put_self d hl]
  · rw [entry?_put_of_ne d' hkl, entry?_put_of_ne d hkl, h.entry k hk]

theorem AgreeOff.filter (h : AgreeOff region cwd d d') (keep : Location → Bool) :
    AgreeOff region cwd { d with entries := d.entries.filter fun e => keep e.1 }
      { d' with entries := d'.entries.filter fun e => keep e.1 } := by
  refine ⟨h.left, h.right, fun k hk => ?_⟩
  by_cases hroot : k = []
  · rw [hroot, entry?_nil, entry?_nil]
  · have hentry := h.entry k hk
    rw [entry?_of_ne_nil _ hroot, entry?_of_ne_nil _ hroot] at hentry
    rw [entry?_of_ne_nil _ hroot, entry?_of_ne_nil _ hroot, lookup_filter, lookup_filter, hentry]

theorem AgreeOff.writeText (h : AgreeOff region cwd d d') (hp : Avoids region cwd p) (text : String) :
    AgreeOn region cwd (d.writeText p text) (d'.writeText p text) := by
  rw [Disk.writeText, Disk.writeText, write, write, h.locate hp]
  cases hl : d.locate p with
  | error e => exact .error e
  | ok l =>
    rw [ok_bind, ok_bind, place_of_locate h.left hl, h.entry _ hp.place]
    split
    · exact .error _
    · rename_i hdirectory
      exact .ok (h.put (fun hroot => hdirectory (if_pos hroot)) _)

theorem AgreeOff.remove (h : AgreeOff region cwd d d') (hp : Avoids region cwd p) :
    AgreeOn region cwd (d.remove p) (d'.remove p) := by
  rw [Disk.remove, Disk.remove, h.locate hp]
  cases hl : d.locate p with
  | error e => exact .error e
  | ok l =>
    rw [ok_bind, ok_bind, place_of_locate h.left hl, h.entry _ hp.place]
    split
    · exact .error _
    · exact .error _
    · exact .ok (h.filter fun k => k != place cwd p)

theorem AgreeOff.removeIfPresent (h : AgreeOff region cwd d d') (hp : Avoids region cwd p) :
    AgreeOn region cwd (d.removeIfPresent p) (d'.removeIfPresent p) := by
  rw [Disk.removeIfPresent, Disk.removeIfPresent]
  have hremove := h.remove hp
  generalize d.remove p = x at hremove
  generalize d'.remove p = x' at hremove
  cases hremove with
  | ok hagree => exact .ok hagree
  | error e =>
    cases e with
    | notFound => exact .ok h
    | _ => exact .error _

theorem AgreeOff.removeTree (h : AgreeOff region cwd d d') (hp : Avoids region cwd p) :
    AgreeOn region cwd (d.removeTree p) (d'.removeTree p) := by
  rw [Disk.removeTree, Disk.removeTree, h.locate hp]
  cases hl : d.locate p with
  | error e => exact .error e
  | ok l =>
    rw [ok_bind, ok_bind, place_of_locate h.left hl, h.entry _ hp.place]
    split
    · exact .error _
    · exact .ok (h.filter fun k => !(place cwd p).isPrefixOf k)

/-! ## The same tree -/

/-- The same files and directories with the same contents. -/
structure SameTree (d d' : Disk) : Prop where
  cwd : d'.cwd = d.cwd
  entry : ∀ l, d'.entry? l = d.entry? l

namespace SameTree

variable {d₁ d₂ : Disk}

theorem refl (d : Disk) : SameTree d d := ⟨rfl, fun _ => rfl⟩

theorem trans (h : SameTree d d₁) (h' : SameTree d₁ d₂) : SameTree d d₂ :=
  ⟨h'.cwd.trans h.cwd, fun l => (h'.entry l).trans (h.entry l)⟩

theorem locate (h : SameTree d d₁) (p : Path) : d₁.locate p = d.locate p := by
  have hagree : AgreeOff (fun _ => False) d.cwd d d₁ := ⟨rfl, h.cwd, fun l _ => h.entry l⟩
  exact hagree.locate fun _ _ h => h

end SameTree

/-- Putting what is there already. -/
theorem sameTree_put {e : Entry} (hl : l ≠ []) (h : d.entry? l = some e) : SameTree d (d.put l e) := by
  refine ⟨rfl, fun k => ?_⟩
  by_cases hkl : k = l
  · rw [hkl, entry?_put_self d hl, h]
  · exact entry?_put_of_ne d hkl e

end Disk
end Storage
end Groundplan
