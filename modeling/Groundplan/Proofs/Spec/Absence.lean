/-
Keys without a value.

In each part of a specification a key without a value means the same as no key.  Entries of
that kind may be added to any of the parts, wherever it stands in the document and whatever
else is wrong with it: decoding drops them before it looks at anything, so the outcome stays
the same, down to the violations.  Other mappings keep their nulls.  `Form` says where in a
document the parts stand.
-/
import Groundplan.Project.Compile
import Groundplan.Proofs.Result
import Groundplan.Spec.Source
import Mathlib.Data.List.Basic
import Mathlib.Data.List.Find
import Mathlib.Logic.Relation

namespace Groundplan

namespace Spec

open Coercion

/-! ## Where the parts stand -/

/-- The parts of a specification, each a mapping with fields of its own. -/
inductive Part
  | spec
  | metadata
  | workload
  | workloadResources
  | backup
  | port
  | sharedResources
  | networking

/-- What a value is decoded as: a part, a part under each name, a list of parts, or something
without parts. -/
inductive Form
  | part (p : Part)
  | named (p : Part)
  | listed (p : Part)
  | plain

def Part.field : Part → String → Form
  | .spec, "metadata" => .part .metadata
  | .spec, "workloads" => .named .workload
  | .spec, "resources" => .part .sharedResources
  | .workload, "resources" => .part .workloadResources
  | .workload, "ports" => .listed .port
  | .workload, "backup" => .part .backup
  | .sharedResources, "networking" => .part .networking
  | _, _ => .plain

/-- `d'` is `d` with one more entry, which has no value, in a part that stands in it.  Nothing is
asked of the key. -/
inductive AddsNull : Form → Datum → Datum → Prop
  | here (p : Part) (front back : List (Datum × Datum)) (key : Datum) :
      AddsNull (.part p) (.mapping (front ++ back)) (.mapping (front ++ (key, .null) :: back))
  | field {p : Part} {name : String} {d d' : Datum} (front back : List (Datum × Datum)) :
      AddsNull (p.field name) d d' →
        AddsNull (.part p) (.mapping (front ++ (.text name, d) :: back))
          (.mapping (front ++ (.text name, d') :: back))
  | named {p : Part} {d d' : Datum} (front back : List (Datum × Datum)) (key : Datum) :
      AddsNull (.part p) d d' →
        AddsNull (.named p) (.mapping (front ++ (key, d) :: back))
          (.mapping (front ++ (key, d') :: back))
  | listItem {p : Part} {d d' : Datum} (front back : List Datum) :
      AddsNull (.part p) d d' →
        AddsNull (.listed p) (.list (front ++ d :: back)) (.list (front ++ d' :: back))
  | tupleItem {p : Part} {d d' : Datum} (front back : List Datum) :
      AddsNull (.part p) d d' →
        AddsNull (.listed p) (.tuple (front ++ d :: back)) (.tuple (front ++ d' :: back))

/-! ## Decoding by form -/

def Part.Decoded : Part → Type
  | .spec => Spec
  | .metadata => Metadata
  | .workload => Workload
  | .workloadResources => WorkloadResources
  | .backup => Backup
  | .port => Port
  | .sharedResources => SharedResources
  | .networking => Networking

def Part.decode : (p : Part) → Datum → Checked p.Decoded
  | .spec => Spec.decode
  | .metadata => Metadata.decode
  | .workload => Workload.decode
  | .workloadResources => WorkloadResources.decode
  | .backup => Backup.decode
  | .port => Port.decode
  | .sharedResources => SharedResources.decode
  | .networking => Networking.decode

def Form.Decoded : Form → Type
  | .part p => p.Decoded
  | .named p => List (String × p.Decoded)
  | .listed p => List p.Decoded
  | .plain => Datum

def Form.decode : (f : Form) → Datum → Checked f.Decoded
  | .part p => p.decode
  | .named p => dictionary p.decode
  | .listed p => list p.decode
  | .plain => .ok

/-! ## Entries without a value -/

theorem presentEntries_null (front back : List (Datum × Datum)) (key : Datum) :
    presentEntries (front ++ (key, .null) :: back) = presentEntries (front ++ back) := by
  simp [presentEntries, Datum.isNull]

theorem presentEntries_present {d : Datum} (hd : d.isNull = false)
    (front back : List (Datum × Datum)) (key : Datum) :
    presentEntries (front ++ (key, d) :: back) =
      presentEntries front ++ (key, d) :: presentEntries back := by
  simp [presentEntries, hd]

theorem decodePart_congr {α : Type} {name : String} {decode : List (Datum × Datum) → Checked α}
    {es es' : List (Datum × Datum)} (h : presentEntries es' = presentEntries es) :
    decodePart name decode (.mapping es') = decodePart name decode (.mapping es) :=
  congrArg decode h

/-- Nothing else is looked at. -/
theorem Part.decode_congr (p : Part) {es es' : List (Datum × Datum)}
    (h : presentEntries es' = presentEntries es) :
    p.decode (.mapping es') = p.decode (.mapping es) := by
  cases p <;> rw [Part.decode] <;> exact decodePart_congr h

section

variable {α : Type} {name : String} {d d' : Datum} {front back : List (Datum × Datum)}

/-! ## Fields and an entry -/

theorem valueOf?_append (name : String) (a b : List (Datum × Datum)) :
    valueOf? name (a ++ b) = (valueOf? name a).or (valueOf? name b) := by
  induction a with
  | nil => rfl
  | cons e a ih =>
    obtain ⟨k, v⟩ := e
    rw [List.cons_append, valueOf?.eq_def name ((k, v) :: (a ++ b)), valueOf?.eq_def name ((k, v) :: a)]
    dsimp only
    split
    · split
      · rfl
      · exact ih
    · exact ih

theorem valueOf?_of_ne {other : String} (h : other ≠ name) :
    valueOf? other (front ++ (.text name, d) :: back) = valueOf? other (front ++ back) := by
  rw [valueOf?_append, valueOf?_append, valueOf?, if_neg (Ne.symm h)]

/-- The first entry of a name counts. -/
theorem valueOf?_self :
    valueOf? name (front ++ (.text name, d) :: back) = (valueOf? name front).or (some d) := by
  rw [valueOf?_append, valueOf?, if_pos rfl]

theorem lookupField_of_not_mem {names : List String} (h : name ∉ names) :
    lookupField names (front ++ (.text name, d) :: back) = lookupField names (front ++ back) := by
  induction names with
  | nil => rfl
  | cons other names ih =>
    rw [List.mem_cons, not_or] at h
    rw [lookupField, lookupField, List.findSome?_cons, List.findSome?_cons, ← lookupField,
      ← lookupField, valueOf?_of_ne (Ne.symm h.1), ih h.2]

theorem lookupField_self :
    lookupField [name] (front ++ (.text name, d) :: back) =
      some (name, (valueOf? name front).getD d) := by
  rw [lookupField, List.findSome?_cons, valueOf?_self]
  cases valueOf? name front <;> rfl

/-- A field does not see the entry of another one. -/
theorem fieldOr_of_not_mem {default : α} {names : List String} {decode : Datum → Checked α}
    (h : name ∉ names) : fieldOr default names decode (front ++ (.text name, d) :: back) =
      fieldOr default names decode (front ++ back) := by
  rw [fieldOr, fieldOr, lookupField_of_not_mem h]

theorem optionalField_of_not_mem {names : List String} {decode : Datum → Checked α}
    (h : name ∉ names) : optionalField names decode (front ++ (.text name, d) :: back) =
      optionalField names decode (front ++ back) :=
  fieldOr_of_not_mem h

theorem fieldOr_self {default : α} {decode : Datum → Checked α} (h : decode d' = decode d) :
    fieldOr default [name] decode (front ++ (.text name, d') :: back) =
      fieldOr default [name] decode (front ++ (.text name, d) :: back) := by
  rw [fieldOr, fieldOr, lookupField_self, lookupField_self]
  cases valueOf? name front with
  | none => exact congrArg (Checked.within name) h
  | some first => rfl

theorem optionalField_self {decode : Datum → Checked α} (h : decode d' = decode d) :
    optionalField [name] decode (front ++ (.text name, d') :: back) =
      optionalField [name] decode (front ++ (.text name, d) :: back) :=
  fieldOr_self (congrArg (some <$> ·) h)

/-! ## What no field took -/

variable {fields : List (List String)}

theorem fst_lookupField (names : List String) (es : List (Datum × Datum)) :
    (lookupField names es).map Prod.fst = names.find? fun name => (valueOf? name es).isSome := by
  induction names with
  | nil => rfl
  | cons name names ih =>
    rw [lookupField, List.findSome?_cons, List.find?_cons, ← lookupField]
    cases valueOf? name es with
    | none => exact ih
    | some d => rfl

/-- Which keys are taken does not depend on their values. -/
theorem taken_congr :
    unknownEntries.taken fields (front ++ (.text name, d') :: back) =
      unknownEntries.taken fields (front ++ (.text name, d) :: back) := by
  rw [unknownEntries.taken, unknownEntries.taken]
  refine List.filterMap_congr fun names _ => ?_
  rw [fst_lookupField, fst_lookupField]
  refine List.find?_congr fun other _ => ?_
  by_cases h : other = name
  · rw [h, valueOf?_self, valueOf?_self]
    cases valueOf? name front <;> rfl
  · rw [valueOf?_of_ne h, valueOf?_of_ne h]

theorem mem_taken (h : [name] ∈ fields) :
    name ∈ unknownEntries.taken fields (front ++ (.text name, d) :: back) := by
  refine List.mem_filterMap.mpr ⟨[name], h, ?_⟩
  rw [lookupField_self]
  rfl

theorem go_congr {es es' : List (Datum × Datum)}
    (h : unknownEntries.taken fields es' = unknownEntries.taken fields es)
    (rest : List (Datum × Datum)) :
    unknownEntries.go fields es' rest = unknownEntries.go fields es rest := by
  induction rest with
  | nil => rfl
  | cons e rest ih =>
    obtain ⟨k, v⟩ := e
    cases k <;> simp only [unknownEntries.go, h, ih]

/-- A key that is taken is passed over. -/
theorem go_of_mem_taken {es : List (Datum × Datum)} (h : name ∈ unknownEntries.taken fields es) :
    unknownEntries.go fields es (front ++ (.text name, d) :: back) =
      unknownEntries.go fields es (front ++ back) := by
  induction front with
  | nil => rw [List.nil_append, unknownEntries.go, if_pos (List.contains_iff_mem.mpr h), List.nil_append]
  | cons e front ih =>
    obtain ⟨k, v⟩ := e
    rw [List.cons_append, List.cons_append]
    cases k <;> simp only [unknownEntries.go, ih]

theorem unknownEntries_of_mem (d d' : Datum) (h : [name] ∈ fields) :
    unknownEntries fields (front ++ (.text name, d') :: back) =
      unknownEntries fields (front ++ (.text name, d) :: back) := by
  rw [unknownEntries, unknownEntries, go_congr (taken_congr (d := d)), go_of_mem_taken (mem_taken h),
    go_of_mem_taken (mem_taken h)]

/-! ## Parts inside a part -/

/-- A part of the specification depends on what stands under the key of another part by way of
what that is decoded as.  The same is said of the other two parts that have parts in them. -/
theorem decode_spec_field (hd : d.isNull = false) (hd' : d'.isNull = false)
    (h : name = "metadata" ∧ Metadata.decode d' = Metadata.decode d ∨
      name = "workloads" ∧ decodeWorkloads d' = decodeWorkloads d ∨
      name = "resources" ∧ SharedResources.decode d' = SharedResources.decode d) :
    Spec.decode (.mapping (front ++ (.text name, d') :: back)) =
      Spec.decode (.mapping (front ++ (.text name, d) :: back)) := by
  rw [Spec.decode, decodePart, decodePart, presentEntries_present hd, presentEntries_present hd']
  rcases h with ⟨rfl, h⟩ | ⟨rfl, h⟩ | ⟨rfl, h⟩ <;>
    simp (disch := decide) only [optionalField_of_not_mem, fieldOr_of_not_mem, fieldOr_self h,
      unknownEntries_of_mem d d']

theorem decode_workload_field (hd : d.isNull = false) (hd' : d'.isNull = false)
    (h : name = "resources" ∧ WorkloadResources.decode d' = WorkloadResources.decode d ∨
      name = "ports" ∧ list Port.decode d' = list Port.decode d ∨
      name = "backup" ∧ Backup.decode d' = Backup.decode d) :
    Workload.decode (.mapping (front ++ (.text name, d') :: back)) =
      Workload.decode (.mapping (front ++ (.text name, d) :: back)) := by
  rw [Workload.decode, decodePart, decodePart, presentEntries_present hd, presentEntries_present hd']
  rcases h with ⟨rfl, h⟩ | ⟨rfl, h⟩ | ⟨rfl, h⟩ <;>
    simp (disch := decide) only [optionalField_of_not_mem, fieldOr_of_not_mem, fieldOr_self h,
      optionalField_self h, unknownEntries_of_mem d d']

theorem decode_sharedResources_field (hd : d.isNull = false) (hd' : d'.isNull = false)
    (h : name = "networking" ∧ Networking.decode d' = Networking.decode d) :
    SharedResources.decode (.mapping (front ++ (.text name, d') :: back)) =
      SharedResources.decode (.mapping (front ++ (.text name, d) :: back)) := by
  rw [SharedResources.decode, decodePart, decodePart, presentEntries_present hd,
    presentEntries_present hd']
  obtain ⟨rfl, h⟩ := h
  simp (disch := decide) only [optionalField_self h, unknownEntries_of_mem d d']

theorem Part.decode_field {p : Part} (hname : p.field name ≠ .plain) (hd : d.isNull = false)
    (hd' : d'.isNull = false) (h : (p.field name).decode d' = (p.field name).decode d) :
    p.decode (.mapping (front ++ (.text name, d') :: back)) =
      p.decode (.mapping (front ++ (.text name, d) :: back)) := by
  fun_cases Part.field p name with
  | case1 => exact decode_spec_field hd hd' (.inl ⟨rfl, h⟩)
  | case2 =>
    have h : decodeWorkloads d' = decodeWorkloads d :=
      congrArg (Checked.andThen · checkWorkloadNames) h
    exact decode_spec_field hd hd' (.inr (.inl ⟨rfl, h⟩))
  | case3 => exact decode_spec_field hd hd' (.inr (.inr ⟨rfl, h⟩))
  | case4 => exact decode_workload_field hd hd' (.inl ⟨rfl, h⟩)
  | case5 => exact decode_workload_field hd hd' (.inr (.inl ⟨rfl, h⟩))
  | case6 => exact decode_workload_field hd hd' (.inr (.inr ⟨rfl, h⟩))
  | case7 => exact decode_sharedResources_field hd hd' ⟨rfl, h⟩
  | case8 =>
    refine absurd ?_ hname
    rw [Part.field] <;> assumption

/-! ## Parts in a collection -/

theorem entriesOf_congr {value : Datum → Checked α} (h : value d' = value d) {key : Datum} :
    entriesOf.go value (front ++ (key, d') :: back) =
      entriesOf.go value (front ++ (key, d) :: back) := by
  induction front with
  | nil => rw [List.nil_append, List.nil_append, entriesOf.go, entriesOf.go, h]
  | cons e front ih =>
    obtain ⟨k, v⟩ := e
    rw [List.cons_append, List.cons_append, entriesOf.go, entriesOf.go, ih]

theorem dictionary_congr {value : Datum → Checked α} (h : value d' = value d) {key : Datum} :
    dictionary value (.mapping (front ++ (key, d') :: back)) =
      dictionary value (.mapping (front ++ (key, d) :: back)) :=
  congrArg (Entries.ofPairs <$> ·) (entriesOf_congr h)

theorem itemsOf_congr {item : Datum → Checked α} (h : item d' = item d) {front back : List Datum}
    (index : Nat) :
    itemsOf item index (front ++ d' :: back) = itemsOf item index (front ++ d :: back) := by
  induction front generalizing index with
  | nil => rw [List.nil_append, List.nil_append, itemsOf, itemsOf, h]
  | cons x front ih => rw [List.cons_append, List.cons_append, itemsOf, itemsOf, ih]

end

/-! ## Outcomes -/

theorem AddsNull.form_ne_plain {f : Form} {d d' : Datum} (h : AddsNull f d d') : f ≠ .plain := by
  cases h <;> exact Form.noConfusion

theorem AddsNull.isNull_left {f : Form} {d d' : Datum} (h : AddsNull f d d') : d.isNull = false := by
  cases h <;> rfl

theorem AddsNull.isNull_right {f : Form} {d d' : Datum} (h : AddsNull f d d') :
    d'.isNull = false := by
  cases h <;> rfl

/-- One entry without a value changes nothing. -/
theorem AddsNull.decode_eq {f : Form} {d d' : Datum} (h : AddsNull f d d') :
    f.decode d' = f.decode d := by
  induction h with
  | here p front back key => exact p.decode_congr (presentEntries_null front back key)
  | field front back hinner ih =>
    exact Part.decode_field hinner.form_ne_plain hinner.isNull_left hinner.isNull_right ih
  | named front back key _ ih => exact dictionary_congr ih
  | listItem front back _ ih => exact itemsOf_congr ih 0
  | tupleItem front back _ ih => exact itemsOf_congr ih 0

theorem AddsNull.ofDatum_eq {d d' : Datum} (h : AddsNull (.part .spec) d d') (source : String) :
    ofDatum source d' = ofDatum source d := by
  have hdecode : Spec.decode d' = Spec.decode d := h.decode_eq
  obtain ⟨es, rfl⟩ : ∃ es, d = .mapping es := by cases h <;> exact ⟨_, rfl⟩
  obtain ⟨es', rfl⟩ : ∃ es', d' = .mapping es' := by cases h <;> exact ⟨_, rfl⟩
  rw [ofDatum, ofDatum, hdecode]

/-- However many entries without a value are added to the parts of a specification, and wherever
these stand, the outcome of decoding is the same, and so is that of compiling. -/
theorem outcome_of_addsNull {d d' : Datum}
    (h : Relation.ReflTransGen (AddsNull (.part .spec)) d d') (source : String)
    (l : Module.Library) (options : Project.Options) :
    ofDatum source d' = ofDatum source d ∧
      (ofDatum source d').map (fun s => Project.compile l s options) =
        (ofDatum source d).map (fun s => Project.compile l s options) := by
  have hsame : ofDatum source d' = ofDatum source d := by
    induction h with
    | refl => rfl
    | tail _ hstep ih => exact (hstep.ofDatum_eq source).trans ih
  exact ⟨hsame, congrArg _ hsame⟩

/-- A workload with a port that is no number, and what stands in front in three of the parts. -/
def portDocument (spec workload port : List (Datum × Datum)) : Datum :=
  .mapping (spec ++ [(.text "workloads", .mapping [(.text "web", .mapping (workload ++
    [(.text "health_check", .mapping []),
      (.text "ports", .list [.mapping (port ++ [(.text "port", .text "x")])])]))])])

/-- Keys that are no texts, and a second name of a field that is given by its first. -/
def sparseDocument : Datum :=
  portDocument [(.int 1, .null)] [(.text "healthCheck", .null)] [(.null, .null)]

/-- What is wrong with the document is said in the same way. -/
theorem outcome_of_addsNull_sparse :
    Relation.ReflTransGen (AddsNull (.part .spec)) (portDocument [] [] []) sparseDocument ∧
      (ofDatum "doc" sparseDocument = ofDatum "doc" (portDocument [] [] []) ∧
        (ofDatum "doc" sparseDocument).map (fun s => Project.compile .builtIn s {}) =
          (ofDatum "doc" (portDocument [] [] [])).map (fun s => Project.compile .builtIn s {})) ∧
      ofDatum "doc" sparseDocument =
        .error (.spec ⟨"doc", .violations [⟨["workloads", "web", "ports", "0", "port"], .integerText⟩]⟩) := by
  have hport : AddsNull (.part .spec) (portDocument [] [] []) (portDocument [] [] [(.null, .null)]) :=
    .field [] [] (.named [] [] _ (.field [(.text "health_check", .mapping [])] []
      (.listItem [] [] (.here .port [] _ .null))))
  have hworkload : AddsNull (.part .spec) (portDocument [] [] [(.null, .null)])
      (portDocument [] [(.text "healthCheck", .null)] [(.null, .null)]) :=
    .field [] [] (.named [] [] _ (.here .workload [] _ (.text "healthCheck")))
  have hspec : AddsNull (.part .spec) (portDocument [] [(.text "healthCheck", .null)] [(.null, .null)])
      sparseDocument := .here .spec [] _ (.int 1)
  have hall := ((Relation.ReflTransGen.single hport).tail hworkload).tail hspec
  exact ⟨hall, outcome_of_addsNull hall "doc" .builtIn {}, error_of_fault? (by decide +kernel)⟩

end Spec
end Groundplan
