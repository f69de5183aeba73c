/-
Which plugins count.

Discovery files what plugins bring under the names of the plugins, and the registry files
templates under their types.  Plugins of one name therefore share one place: it is the place
of the first of them that loads, and it is held by the last of them that does.  `standing`
says so without either table, and the registry after the first look-up is read off it.  As
long as the plugins that load have different names, each stands for itself, and no plugin
costs another its place.  The exception is a template class without a usable type: nothing
behind it is reached, and as the search is not repeated, nothing behind it ever will be.
-/
import Groundplan.Module.Library
import Groundplan.Proofs.Datum.Entries
import Mathlib.Data.List.TakeWhile

namespace Groundplan
namespace Module

def Loaded.template? : Loaded → Option Template
  | .template t => some t
  | _ => none

/-- What ends a search that comes to this. -/
def Loaded.fault? : Loaded → Option Nameless
  | .nameless fault => some fault
  | _ => none

/-- What plugins bring, under their names.  One that cannot be loaded brings nothing. -/
def brought (ps : List Plugin) : List (String × Loaded) :=
  ps.filterMap fun p => p.loaded.toOption.map fun x => (p.name, x)

/-- What stands for the names: of all that is brought under one name the last, in the place
of the first. -/
def standing (es : List (String × Loaded)) : List Loaded :=
  (es.map Prod.fst).eraseDups.filterMap fun n => Entries.last? n es

/-- What a search comes to before it ends. -/
def reached (xs : List Loaded) : List Loaded := xs.takeWhile fun x => x.fault?.isNone

/-- The templates among what is brought, in their order. -/
def offered (xs : List Loaded) : List Template := xs.filterMap Loaded.template?

/-- The last template for a type. -/
def latest? (type : String) (ts : List Template) : Option Template :=
  (ts.filter fun t => t.typeName == type).getLast?

/-- What looking for plugins makes of a registry.  A type is registered to the last template
for it that is reached among what stands for the names, and everything is reached unless a
class without a type is met. -/
structure Adopts (ps : List Plugin) (old : List (String × Template)) (s : Search) : Prop where
  registered : ∀ type, s.library.templates.lookup type =
    (latest? type (offered (reached (standing (brought ps))))).or (old.lookup type)
  stopped : s.stopped = (standing (brought ps)).findSome? Loaded.fault?
  typed : (∀ e ∈ brought ps, e.2.fault? = none) → s.stopped = none ∧
    ∀ type, s.library.templates.lookup type =
      (latest? type (offered (standing (brought ps)))).or (old.lookup type)
  distinct : (∀ e ∈ brought ps, e.2.fault? = none) → ((brought ps).map Prod.fst).Nodup →
    ∀ type, s.library.templates.lookup type =
      (latest? type (offered ((brought ps).map Prod.snd))).or (old.lookup type)
  unchanged : offered ((brought ps).map Prod.snd) = [] → s.library.templates = old

namespace Library

/-! ## Registering templates one after the other -/

/-- Templates under their types. -/
def named (ts : List Template) : List (String × Template) := ts.map fun t => (t.typeName, t)

def registerAll (l : Library) (ts : List Template) : Library := ts.foldl register l

theorem last?_named (type : String) (ts : List Template) :
    Entries.last? type (named ts) = latest? type ts := by
  rw [Entries.last?, named, List.filter_map, List.getLast?_map, Option.map_map]
  exact Option.map_id'

theorem registerAll_eq (l : Library) (ts : List Template) :
    l.registerAll ts =
      { l with templates := (named ts).foldl (fun es p => Entries.insert p.1 p.2 es) l.templates } := by
  induction ts generalizing l with
  | nil => rfl
  | cons t ts ih => exact ih (l.register t)

theorem lookup_registerAll (l : Library) (ts : List Template) (type : String) :
    (l.registerAll ts).templates.lookup type = (latest? type ts).or (l.templates.lookup type) := by
  rw [registerAll_eq, ← last?_named]
  exact Entries.lookup_foldl_insert type (named ts) l.templates

/-! ## What is found -/

/-- A search registers the templates that it reaches, and ends where the first class without
a type stands. -/
theorem adoptAll_eq (l : Library) (found : List (String × Loaded)) :
    (l.adoptAll found).library = l.registerAll (offered (reached (found.map Prod.snd))) ∧
      (l.adoptAll found).stopped = (found.map Prod.snd).findSome? Loaded.fault? := by
  induction found generalizing l with
  | nil => exact ⟨rfl, rfl⟩
  | cons e found ih =>
    obtain ⟨name, x⟩ := e
    cases x with
    | template t => exact ih (l.register t)
    | nameless fault => exact ⟨rfl, rfl⟩
    | value d => exact ih l

theorem search_eq {l : Library} (h : l.searched = false) :
    l.search.library = { l with searched := true }.registerAll
        (offered (reached (l.discover.1.map Prod.snd))) ∧
      l.search.stopped = (l.discover.1.map Prod.snd).findSome? Loaded.fault? := by
  rw [search, if_neg (by rw [h]; decide)]
  exact adoptAll_eq _ _

/-- What discovery finds is what stands for the names. -/
theorem discover_eq {l : Library} (h : l.scanFailure = none) :
    l.discover.1.map Prod.snd = standing (brought l.plugins) := by
  have hfound : l.discover.1 = Entries.ofPairs (brought l.plugins) := by
    rw [discover, h]
    rfl
  rw [hfound, Entries.ofPairs_eq, List.map_filterMap, standing]
  refine List.filterMap_congr fun n _ => ?_
  rw [Option.map_map]
  exact Option.map_id'

/-! ## What stands for the names -/

theorem standing_of_nodup {es : List (String × Loaded)} (h : (es.map Prod.fst).Nodup) :
    standing es = es.map Prod.snd := by
  induction es with
  | nil => rfl
  | cons e es ih =>
    rw [List.map_cons, List.nodup_cons] at h
    have hother : ∀ n ∈ es.map Prod.fst, n ≠ e.1 := fun n hn heq => h.1 (heq ▸ hn)
    have hnames : (es.map Prod.fst).filter (fun n => !n == e.1) = es.map Prod.fst :=
      List.filter_eq_self.mpr fun n hn => by simpa using hother n hn
    have hself : Entries.last? e.1 (e :: es) = some e.2 := by
      rw [Entries.last?, List.filter_cons_of_pos (by simp), List.filter_eq_nil_iff.mpr]
      · rfl
      · intro b hb
        simpa using hother _ (List.mem_map_of_mem hb)
    have hrest : ∀ n ∈ (es.map Prod.fst).eraseDups,
        Entries.last? n (e :: es) = Entries.last? n es := by
      intro n hn
      have hne := hother n (List.mem_eraseDups.mp hn)
      rw [Entries.last?, List.filter_cons_of_neg (by simpa using hne.symm)]
      rfl
    rw [standing, List.map_cons, List.eraseDups_cons, hnames, List.filterMap_cons, hself]
    exact congrArg (e.2 :: ·) ((List.filterMap_congr hrest).trans (ih h.2))

theorem mem_of_mem_standing {es : List (String × Loaded)} {x : Loaded} (h : x ∈ standing es) :
    x ∈ es.map Prod.snd := by
  obtain ⟨n, -, hlast⟩ := List.mem_filterMap.mp h
  obtain ⟨e, he, rfl⟩ := Option.map_eq_some_iff.mp hlast
  exact List.mem_map_of_mem (List.mem_of_mem_filter (List.mem_of_getLast? he))

/-- Without a class that has no type everything is reached. -/
theorem reached_standing {es : List (String × Loaded)} (h : ∀ e ∈ es, e.2.fault? = none) :
    reached (standing es) = standing es ∧ (standing es).findSome? Loaded.fault? = none := by
  have hall : ∀ x ∈ standing es, x.fault? = none := by
    intro x hx
    obtain ⟨e, he, rfl⟩ := List.mem_map.mp (mem_of_mem_standing hx)
    exact h e he
  constructor
  · exact List.takeWhile_eq_self_iff.mpr fun x hx => by rw [hall x hx]; rfl
  · exact List.findSome?_eq_none_iff.mpr hall

theorem offered_reached_of_nil {es : List (String × Loaded)}
    (h : offered (es.map Prod.snd) = []) : offered (reached (standing es)) = [] := by
  rw [offered, List.filterMap_eq_nil_iff] at h ⊢
  exact fun x hx => h x (mem_of_mem_standing ((List.takeWhile_prefix _).subset hx))

/-! ## The first look-up -/

/-- A library whose plugins were not looked for yet, and can be. -/
def withPlugins (l : Library) (ps : List Plugin) : Library :=
  { l with plugins := ps, scanFailure := none, searched := false }

/-- Which templates are registered after the first look-up, whatever plugins there are. -/
theorem search_adopts (l : Library) (ps : List Plugin) :
    Adopts ps l.templates (l.withPlugins ps).search := by
  obtain ⟨hlibrary, hstopped⟩ := search_eq (l := l.withPlugins ps) rfl
  rw [discover_eq (l := l.withPlugins ps) rfl] at hlibrary hstopped
  have hregistered : ∀ type, (l.withPlugins ps).search.library.templates.lookup type =
      (latest? type (offered (reached (standing (brought ps))))).or (l.templates.lookup type) := by
    intro type
    rw [hlibrary]
    exact lookup_registerAll _ _ type
  refine ⟨hregistered, hstopped, fun htyped => ?typed, fun htyped hnodup type => ?distinct,
    fun hnone => ?unchanged⟩
  case typed =>
    obtain ⟨hreached, hfault⟩ := reached_standing htyped
    exact ⟨hstopped.trans hfault, fun type => by rw [hregistered, hreached]⟩
  case distinct =>
    rw [hregistered, (reached_standing htyped).1, standing_of_nodup hnodup]
  case unchanged =>
    rw [hlibrary]
    show (registerAll _ (offered (reached (standing (brought ps))))).templates = l.templates
    rw [offered_reached_of_nil hnone]
    rfl

/-- A template that no library has built in. -/
def bucket : Template where
  typeName := "bucket"
  resources := fun _ => ⟨[Hcl.resource "aws_s3_bucket" "this" []]⟩

/-- A plugin that brings no template takes the place of one of its name that does. -/
theorem bucket_displaced :
    let ps : List Plugin := [⟨"bucket", .ok (.template bucket)⟩, ⟨"bucket", .ok (.value (.int 7))⟩]
    latest? "bucket" (offered ((brought ps).map Prod.snd)) = some bucket ∧
      ((builtIn.withPlugins ps).search.library.templates.lookup "bucket") = none :=
  ⟨rfl, rfl⟩

end Library
end Module
end Groundplan
