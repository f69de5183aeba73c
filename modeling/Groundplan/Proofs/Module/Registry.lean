/-
The registry under any sequence of steps.

Templates come into the registry in two ways, by being registered and through plugins, and the
second happens once, at the first look-up.  `registrations` puts both into one list, in the
order in which they count, and looks only at the steps and not at any registry.  That the
registry is the one that this list makes is kept by every step, so which template a type has
is always the last of the list that is for it.  A look-up gives an instance of that template
if its class has one, except that the first look-up gives nothing when it meets a class
without a type.
-/
import Groundplan.Project.Compile
import Groundplan.Proofs.Module.Discovery
import Mathlib.Data.List.TakeWhile

namespace Groundplan
namespace Module

/-- What can be done with a registry, and what can happen to the installed plugins. -/
inductive Step
  | register (t : Template)
  | install (p : Plugin)
  /-- From now on plugins can be looked for, or there is a reason why they cannot. -/
  | scan (failure : Option String)
  | discover
  | template (type : String)
  | types
  | compile (spec : Spec) (options : Project.Options)

namespace Step

def run (l : Library) : Step → Library
  | register t => l.register t
  | install p => { l with plugins := l.plugins ++ [p] }
  | scan failure => { l with scanFailure := failure }
  | discover => l
  | template type => (l.find type).1
  | types => l.findTypes.1
  | compile spec options => (Project.compile l spec options).library

/-- Compiling looks up the template of the first workload, if it comes so far. -/
def isLookup : Step → Bool
  | template _ => true
  | types => true
  | compile spec _ => (Project.check spec).isOk && !spec.workloads.isEmpty
  | _ => false

def registered? : Step → Option Template
  | register t => some t
  | _ => none

def installed? : Step → Option Plugin
  | install p => some p
  | _ => none

def scanned? : Step → Option (Option String)
  | scan failure => some failure
  | _ => none

end Step

/-- The library that a sequence of steps leaves, from the built-in one on. -/
def after (steps : List Step) : Library := steps.foldl Step.run .builtIn

/-! ## What the steps say -/

/-- The plugins that are there after some steps, and whether they can be looked for. -/
def surroundings (steps : List Step) : Library :=
  { templates := []
    plugins := steps.filterMap Step.installed?
    scanFailure := (steps.filterMap Step.scanned?).getLast?.join }

/-- What discovery finds after some steps. -/
def found (steps : List Step) : List Loaded := (surroundings steps).discover.1.map Prod.snd

/-- What ends the next look-up: the first class without a type, if no look-up came to it
before. -/
def obstacle? (steps : List Step) : Option Nameless :=
  if steps.any Step.isLookup then none else (found steps).findSome? Loaded.fault?

def builtInTemplates : List Template := Library.builtIn.templates.map Prod.snd

/-- The steps in front of the first look-up. -/
def early (steps : List Step) : List Step := steps.takeWhile fun s => !s.isLookup

/-- The first look-up and the steps behind it. -/
def late (steps : List Step) : List Step := steps.dropWhile fun s => !s.isLookup

/-- The templates that have been registered, in order.  What discovery finds counts as
registered at the first look-up, up to the first class without a type. -/
def registrations (steps : List Step) : List Template :=
  builtInTemplates ++ (early steps).filterMap Step.registered? ++
    (if (late steps).isEmpty then [] else offered (reached (found (early steps)))) ++
      (late steps).filterMap Step.registered?

/-- In every state a look-up finds the template that was registered last for the type, or else
the one that was registered last for types without, and gives an instance of it if its class
has any and no class without a type stands in the way.  Plugins that are installed after the
first look-up count for nothing, and neither does it that they can be looked for only then;
discovery alone changes nothing; and no type is lost. -/
structure FollowsRegistrations (steps : List Step) : Prop where
  template : ∀ type, ∃ t,
    (latest? type (registrations (steps ++ [.template type]))).or
        (latest? generic.typeName (registrations (steps ++ [.template type]))) = some t ∧
      (((after steps).find type).1.templates.lookup type).or
        (((after steps).find type).1.templates.lookup generic.typeName) = some t ∧
      (obstacle? steps = none → t.flaw = none → ((after steps).find type).2.2 = .ok t) ∧
      (∀ reason, obstacle? steps = none → t.flaw = some reason →
        ((after steps).find type).2.2 = .error (.flawed reason)) ∧
      ∀ fault, obstacle? steps = some fault →
        ((after steps).find type).2.2 = .error (.nameless fault)
  types : (after steps).findTypes.1.types =
      ((registrations (steps ++ [.types])).map Template.typeName).eraseDups ∧
    (after steps).findTypes.2.2 = match obstacle? steps with
      | some fault => .error (.nameless fault)
      | none => .ok (after steps).findTypes.1.types
  installed : steps.any Step.isLookup = true → ∀ p more,
    (after (steps ++ .install p :: more)).templates = (after (steps ++ more)).templates
  scanned : steps.any Step.isLookup = true → ∀ failure more,
    (after (steps ++ .scan failure :: more)).templates = (after (steps ++ more)).templates
  discovered : ∀ more, after (steps ++ .discover :: more) = after (steps ++ more)
  kept : ∀ more, (after steps).types <+: (after (steps ++ more)).types

/-! ## More steps -/

/-- Without a look-up all steps are early ones. -/
theorem early_of_not_any {steps : List Step} (h : steps.any Step.isLookup = false) :
    early steps = steps ∧ late steps = [] := by
  rw [List.any_eq_false] at h
  constructor
  · exact List.takeWhile_eq_self_iff.mpr fun s hs => by simpa using h s hs
  · exact List.dropWhile_eq_nil_iff.mpr fun s hs => by simpa using h s hs

/-- The first look-up stays the first. -/
theorem early_append {steps : List Step} (h : steps.any Step.isLookup = true) (more : List Step) :
    early (steps ++ more) = early steps ∧ late (steps ++ more) = late steps ++ more ∧
      late steps ≠ [] := by
  induction steps with
  | nil => cases h
  | cons s steps ih =>
    cases hs : s.isLookup with
    | true => simp [early, late, hs]
    | false =>
      rw [List.any_cons, hs, Bool.false_or] at h
      obtain ⟨hearly, hlate, hne⟩ := ih h
      have hcons : ∀ rest, early (s :: rest) = s :: early rest ∧ late (s :: rest) = late rest := by
        intro rest
        rw [early, late, List.takeWhile_cons, List.dropWhile_cons, hs]
        exact ⟨rfl, rfl⟩
      rw [List.cons_append, (hcons _).1, (hcons _).1, (hcons _).2, (hcons _).2, hearly, hlate]
      exact ⟨rfl, rfl, hne⟩

/-- Behind the first look-up only what is registered counts. -/
theorem registrations_append {steps : List Step} (h : steps.any Step.isLookup = true)
    (more : List Step) :
    registrations (steps ++ more) = registrations steps ++ more.filterMap Step.registered? := by
  obtain ⟨hearly, hlate, hne⟩ := early_append h more
  have hmore : late steps ++ more ≠ [] := List.append_ne_nil_of_left_ne_nil hne more
  rw [registrations, registrations, hearly, hlate, if_neg (mt List.isEmpty_iff.mp hne),
    if_neg (mt List.isEmpty_iff.mp hmore), List.filterMap_append]
  simp only [List.append_assoc]

/-- In front of the first look-up there is nothing from plugins. -/
theorem registrations_of_not_any {steps : List Step} (h : steps.any Step.isLookup = false) :
    registrations steps = builtInTemplates ++ steps.filterMap Step.registered? := by
  obtain ⟨hearly, hlate⟩ := early_of_not_any h
  rw [registrations, hearly, hlate, List.isEmpty_nil, if_pos rfl, List.filterMap_nil,
    List.append_nil, List.append_nil]

/-- The first look-up brings what is found then. -/
theorem registrations_lookup {steps : List Step} (h : steps.any Step.isLookup = false) {s : Step}
    (hs : s.isLookup = true) :
    registrations (steps ++ [s]) = registrations steps ++ offered (reached (found steps)) := by
  have hall : ∀ r ∈ steps, (!r.isLookup) = true := by simpa using List.any_eq_false.mp h
  have hregistered : [s].filterMap Step.registered? = [] := by
    cases s <;> first | rfl | cases hs
  have hsplit : early (steps ++ [s]) = steps ∧ late (steps ++ [s]) = [s] := by
    rw [early, late, List.takeWhile_append_of_pos hall, List.dropWhile_append_of_pos hall,
      List.takeWhile_cons, List.dropWhile_cons, hs]
    exact ⟨List.append_nil steps, rfl⟩
  rw [registrations_of_not_any h, registrations, hsplit.1, hsplit.2, hregistered, List.append_nil]
  rfl

/-- A step that is no look-up adds what it registers. -/
theorem registrations_concat {steps : List Step} {s : Step}
    (hs : steps.any Step.isLookup = true ∨ s.isLookup = false) :
    registrations (steps ++ [s]) = registrations steps ++ [s].filterMap Step.registered? := by
  cases h : steps.any Step.isLookup with
  | true => exact registrations_append h [s]
  | false =>
    have hboth : (steps ++ [s]).any Step.isLookup = false := by
      rw [List.any_append, h, List.any_cons, hs.resolve_left (by rw [h]; decide)]
      rfl
    rw [registrations_of_not_any hboth, registrations_of_not_any h, List.filterMap_append,
      List.append_assoc]

/-! ## The registry -/

/-- The registry is the one that the registrations make. -/
structure IsSettled (steps : List Step) (l : Library) : Prop where
  templates : l.templates = Entries.ofPairs (Library.named (registrations steps))
  plugins : l.plugins = (surroundings steps).plugins
  scanFailure : l.scanFailure = (surroundings steps).scanFailure
  searched : l.searched = steps.any Step.isLookup

theorem named_append (a b : List Template) :
    Library.named (a ++ b) = Library.named a ++ Library.named b :=
  List.map_append

theorem ofPairs_append {α : Type} (a b : List (String × α)) :
    Entries.ofPairs (a ++ b) = b.foldl (fun es p => Entries.insert p.1 p.2 es) (Entries.ofPairs a) :=
  List.foldl_append

/-- What discovery finds depends on the plugins alone. -/
theorem IsSettled.discover {steps : List Step} {l : Library} (h : IsSettled steps l) :
    l.discover = (surroundings steps).discover := by
  rw [Library.discover, Library.discover, h.plugins, h.scanFailure]

theorem any_concat (steps : List Step) (s : Step) :
    (steps ++ [s]).any Step.isLookup = (steps.any Step.isLookup || s.isLookup) := by
  rw [List.any_append, List.any_cons, List.any_nil, Bool.or_false]

theorem surroundings_lookup (steps : List Step) {s : Step} (hs : s.isLookup = true) :
    surroundings (steps ++ [s]) = surroundings steps := by
  have hinstalled : [s].filterMap Step.installed? = [] := by
    cases s <;> first | rfl | cases hs
  have hscanned : [s].filterMap Step.scanned? = [] := by
    cases s <;> first | rfl | cases hs
  rw [surroundings, surroundings, List.filterMap_append, List.filterMap_append, hinstalled, hscanned,
    List.append_nil, List.append_nil]

/-- Looking for plugins does what the first look-up is said to do, and nothing later. -/
theorem IsSettled.search {steps : List Step} {l : Library} (h : IsSettled steps l) {s : Step}
    (hs : s.isLookup = true) :
    IsSettled (steps ++ [s]) l.search.library ∧ l.search.stopped = obstacle? steps := by
  have hsurroundings := surroundings_lookup steps hs
  have hregistered : [s].filterMap Step.registered? = [] := by
    cases s <;> first | rfl | cases hs
  cases hany : steps.any Step.isLookup with
  | true =>
    have hsearch : l.search = { library := l, records := [] } := by
      rw [Library.search, if_pos (h.searched.trans hany)]
    rw [hsearch, obstacle?, if_pos hany]
    refine ⟨⟨?_, ?_, ?_, ?_⟩, rfl⟩
    · rw [registrations_append hany, hregistered, List.append_nil, h.templates]
    · rw [hsurroundings, h.plugins]
    · rw [hsurroundings, h.scanFailure]
    · rw [any_concat, h.searched, hs, Bool.or_true, hany]
  | false =>
    obtain ⟨hlibrary, hstopped⟩ := Library.search_eq (h.searched.trans hany)
    rw [h.discover] at hlibrary hstopped
    rw [hlibrary, hstopped, Library.registerAll_eq]
    refine ⟨⟨?_, ?_, ?_, ?_⟩, ?_⟩
    · rw [registrations_lookup hany hs, named_append, ofPairs_append, ← h.templates, found]
    · rw [hsurroundings, ← h.plugins]
    · rw [hsurroundings, ← h.scanFailure]
    · rw [any_concat, hs, Bool.or_true]
    · rw [obstacle?, if_neg (by rw [hany]; decide), found]

/-- A step that is no look-up. -/
theorem IsSettled.concat {steps : List Step} {l l' : Library} (h : IsSettled steps l) {s : Step}
    (hs : s.isLookup = false)
    (htemplates : l'.templates = (Library.named ([s].filterMap Step.registered?)).foldl
      (fun es p => Entries.insert p.1 p.2 es) l.templates)
    (hplugins : l'.plugins = l.plugins ++ [s].filterMap Step.installed?)
    (hscan : l'.scanFailure = (([s].filterMap Step.scanned?).getLast?.getD l.scanFailure))
    (hsearched : l'.searched = l.searched) : IsSettled (steps ++ [s]) l' := by
  refine ⟨?_, ?_, ?_, ?_⟩
  · rw [registrations_concat (.inr hs), named_append, ofPairs_append, htemplates, h.templates]
  · rw [hplugins, h.plugins, surroundings, surroundings, List.filterMap_append]
  · have happend : (surroundings (steps ++ [s])).scanFailure =
        (([s].filterMap Step.scanned?).getLast?.or (steps.filterMap Step.scanned?).getLast?).join := by
      rw [← List.getLast?_append, ← List.filterMap_append]
      rfl
    rw [happend, hscan, h.scanFailure]
    cases ([s].filterMap Step.scanned?).getLast? <;> rfl
  · rw [any_concat, hs, Bool.or_false, hsearched, h.searched]

theorem Library.fst_find (l : Library) (type : String) : (l.find type).1 = l.search.library := by
  rw [Library.find]
  cases l.search.stopped <;> rfl

/-- Compiling looks for plugins if it comes to a workload. -/
theorem library_compile (l : Library) (spec : Spec) (options : Project.Options) :
    (Project.compile l spec options).library =
      if (Step.compile spec options).isLookup then l.search.library else l := by
  rw [Project.compile, Step.isLookup]
  cases Project.check spec with
  | error e => rfl
  | ok s =>
    cases spec.workloads.isEmpty with
    | true => rfl
    | false =>
      dsimp only
      cases hstopped : l.search.stopped <;> simp [Except.isOk, Except.toBool, hstopped]

/-- Every step keeps the registry the one that the registrations make. -/
theorem IsSettled.run {steps : List Step} {l : Library} (h : IsSettled steps l) (s : Step) :
    IsSettled (steps ++ [s]) (s.run l) := by
  cases s with
  | register t => exact h.concat rfl rfl (List.append_nil _).symm rfl rfl
  | install p => exact h.concat rfl rfl rfl rfl rfl
  | scan failure => exact h.concat rfl rfl (List.append_nil _).symm rfl rfl
  | discover => exact h.concat rfl rfl (List.append_nil _).symm rfl rfl
  | template type =>
    rw [Step.run, Library.fst_find]
    exact (h.search rfl).1
  | types => exact (h.search rfl).1
  | compile spec options =>
    rw [Step.run, library_compile]
    cases hlookup : (Step.compile spec options).isLookup with
    | true => exact (h.search hlookup).1
    | false => exact h.concat hlookup rfl (List.append_nil _).symm rfl rfl

theorem after_concat (steps : List Step) (s : Step) : after (steps ++ [s]) = s.run (after steps) := by
  rw [after, List.foldl_append]
  rfl

theorem isSettled_after (steps : List Step) : IsSettled steps (after steps) := by
  induction steps using List.reverseRecOn with
  | nil => exact ⟨rfl, rfl, rfl, rfl⟩
  | append_singleton steps s ih =>
    rw [after_concat]
    exact ih.run s

/-! ## Look-ups -/

theorem IsSettled.lookup {steps : List Step} {l : Library} (h : IsSettled steps l) (type : String) :
    l.templates.lookup type = latest? type (registrations steps) := by
  rw [h.templates, Entries.ofPairs, Entries.lookup_foldl_insert, Library.last?_named, List.lookup_nil,
    Option.or_none]

theorem IsSettled.types {steps : List Step} {l : Library} (h : IsSettled steps l) :
    l.types = ((registrations steps).map Template.typeName).eraseDups := by
  rw [Library.types, h.templates, Entries.keys_ofPairs, Library.named, List.map_map]
  rfl

theorem latest?_append (type : String) (a b : List Template) :
    latest? type (a ++ b) = (latest? type b).or (latest? type a) := by
  rw [latest?, List.filter_append, List.getLast?_append]
  rfl

/-- The template for types without one is always there. -/
theorem isSome_latest?_generic (steps : List Step) :
    (latest? generic.typeName (registrations steps)).isSome = true := by
  rw [registrations, List.append_assoc, List.append_assoc, latest?_append, Option.isSome_or]
  exact Bool.or_true _

theorem prefix_eraseDups_append (a b : List String) : a.eraseDups <+: (a ++ b).eraseDups := by
  rw [List.eraseDups_append]
  exact List.prefix_append _ _

/-- What has been registered stays registered, and keeps its place in the order of types. -/
theorem types_prefix (steps more : List Step) :
    ((registrations steps).map Template.typeName).eraseDups <+:
      ((registrations (steps ++ more)).map Template.typeName).eraseDups := by
  induction more using List.reverseRecOn with
  | nil =>
    rewrite [List.append_nil]
    exact List.prefix_refl _
  | append_singleton more s ih =>
    refine ih.trans ?_
    rw [← List.append_assoc]
    have hgrow : ∃ ts, registrations (steps ++ more ++ [s]) = registrations (steps ++ more) ++ ts := by
      cases hany : (steps ++ more).any Step.isLookup with
      | true => exact ⟨_, registrations_append hany [s]⟩
      | false =>
        cases hs : s.isLookup with
        | true => exact ⟨_, registrations_lookup hany hs⟩
        | false => exact ⟨_, registrations_concat (.inr hs)⟩
    obtain ⟨ts, hts⟩ := hgrow
    rw [hts, List.map_append]
    exact prefix_eraseDups_append _ _

/-- Which template a look-up gives, after any sequence of steps. -/
theorem after_followsRegistrations (steps : List Step) : FollowsRegistrations steps where
  template := by
    intro type
    obtain ⟨h, hstopped⟩ := (isSettled_after steps).search (s := .template type) rfl
    obtain ⟨fallback, hfallback⟩ :=
      Option.isSome_iff_exists.mp (isSome_latest?_generic (steps ++ [.template type]))
    have hsome : ((latest? type (registrations (steps ++ [.template type]))).or
        (latest? generic.typeName (registrations (steps ++ [.template type])))).isSome = true := by
      rw [Option.isSome_or, hfallback, Option.isSome_some, Bool.or_true]
    obtain ⟨t, ht⟩ := Option.isSome_iff_exists.mp hsome
    have htemplate : (after steps).search.library.template type = t := by
      rw [Library.template, h.lookup, h.lookup, ht, Option.getD_some]
    refine ⟨t, ht, ?_, fun hnone hflaw => ?_, fun reason hnone hflaw => ?_, fun fault hfault => ?_⟩
    · rw [Library.fst_find, h.lookup, h.lookup, ht]
    · rw [Library.find, hstopped, hnone, htemplate]
      simp only [Template.made, hflaw]
    · rw [Library.find, hstopped, hnone, htemplate]
      simp only [Template.made, hflaw]
    · rw [Library.find, hstopped, hfault]
  types := by
    obtain ⟨h, hstopped⟩ := (isSettled_after steps).search (s := .types) rfl
    refine ⟨h.types, ?_⟩
    cases hobstacle : obstacle? steps <;>
      simp only [Library.findTypes, hstopped, hobstacle]
  installed := by
    intro hany p more
    rw [(isSettled_after _).templates, (isSettled_after _).templates, registrations_append hany,
      registrations_append hany]
    rfl
  scanned := by
    intro hany failure more
    rw [(isSettled_after _).templates, (isSettled_after _).templates, registrations_append hany,
      registrations_append hany]
    rfl
  discovered := by
    intro more
    rw [after, List.foldl_append, after, List.foldl_append]
    rfl
  kept := by
    intro more
    rw [(isSettled_after steps).types, (isSettled_after (steps ++ more)).types]
    exact types_prefix steps more

/-- A class without a type keeps the first look-up from giving a template, and the plugin behind
it from ever being found. -/
theorem bucket_unreached :
    let steps : List Step :=
      [.install ⟨"bad", .ok (.nameless (.unhashable "list"))⟩,
        .install ⟨"bucket", .ok (.template Library.bucket)⟩]
    ((after steps).find "bucket").2.2 = .error (.nameless (.unhashable "list")) ∧
      ((after (steps ++ [.template "bucket"])).find "bucket").2.2 = .ok generic :=
  ⟨rfl, rfl⟩

end Module
end Groundplan
