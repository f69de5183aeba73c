/-
What decoding promises about a specification.

Names and types of workloads have been checked, and no name occurs twice; this holds of
whatever value is decoded.  Tags and environments are kept as they are, so they are
documents if the decoded value is one.  A specification can also be put together by hand,
and then none of this holds; what is proved about generated files starts from
`Spec.Accepted`.
-/
import Groundplan.Proofs.Datum.Document
import Groundplan.Spec.Decode

namespace Groundplan

structure Spec.Accepted (s : Spec) : Prop where
  names : ∀ w ∈ s.workloads, Text.isWorkloadName w.1 = true
  distinct : (s.workloads.map Prod.fst).Nodup
  types : ∀ w ∈ s.workloads, Text.isWorkloadName w.2.type = true
  tags : ∀ e ∈ s.metadata.tags, e.2.isDocument = true
  environments : ∀ w ∈ s.workloads, ∀ e ∈ w.2.environment, e.2.isDocument = true

/-- What is promised of names and types alone. -/
structure Spec.Named (s : Spec) : Prop where
  names : ∀ w ∈ s.workloads, Text.isWorkloadName w.1 = true
  distinct : (s.workloads.map Prod.fst).Nodup
  types : ∀ w ∈ s.workloads, Text.isWorkloadName w.2.type = true

/-- The values that are kept as they are come from documents. -/
structure Spec.HoldsDocuments (s : Spec) : Prop where
  tags : ∀ e ∈ s.metadata.tags, e.2.isDocument = true
  environments : ∀ w ∈ s.workloads, ∀ e ∈ w.2.environment, e.2.isDocument = true

theorem Spec.Named.accepted {s : Spec} (h : s.Named) (h' : s.HoldsDocuments) : s.Accepted :=
  ⟨h.names, h.distinct, h.types, h'.tags, h'.environments⟩

namespace Checked

variable {α β : Type}

theorem ok_of_map {f : α → β} {x : Checked α} {b : β} (h : (f <$> x) = .ok b) :
    ∃ a, x = .ok a ∧ f a = b := by
  cases x with
  | ok a => exact ⟨a, rfl, ok.inj h⟩
  | bad vs => cases h

theorem ok_of_seq {f : Checked (α → β)} {x : Checked α} {b : β} (h : (f <*> x) = .ok b) :
    ∃ g a, f = .ok g ∧ x = .ok a ∧ g a = b := by
  cases f with
  | ok g =>
    cases x with
    | ok a => exact ⟨g, a, rfl, rfl, ok.inj h⟩
    | bad vs => cases h
  | bad vs =>
    cases x <;> cases h

theorem ok_of_within {place : String} {x : Checked α} {a : α} (h : x.within place = .ok a) :
    x = .ok a := by
  cases x with
  | ok b => exact h
  | bad vs => cases h

theorem ok_of_andThen {x : Checked α} {f : α → Checked β} {b : β} (h : x.andThen f = .ok b) :
    ∃ a, x = .ok a ∧ f a = .ok b := by
  cases x with
  | ok a => exact ⟨a, rfl, h⟩
  | bad vs => cases h

end Checked

namespace Spec

open Checked Coercion

/-! ## Fields -/

theorem mem_of_valueOf? {name : String} {es : List (Datum × Datum)} {v : Datum}
    (h : valueOf? name es = some v) : ∃ k, (k, v) ∈ es := by
  induction es with
  | nil => cases h
  | cons e es ih =>
    obtain ⟨k, w⟩ := e
    unfold valueOf? at h
    have hrest : valueOf? name es = some v → ∃ k', (k', v) ∈ (k, w) :: es := fun h =>
      (ih h).imp fun _ hk => List.mem_cons_of_mem _ hk
    split at h
    · split at h
      · rw [Option.some.inj h]
        exact ⟨_, List.mem_cons_self⟩
      · exact hrest h
    · exact hrest h

theorem mem_of_lookupField {names : List String} {es : List (Datum × Datum)} {name : String}
    {v : Datum} (h : lookupField names es = some (name, v)) : ∃ k, (k, v) ∈ es := by
  obtain ⟨n, -, hn⟩ := List.exists_of_findSome?_eq_some h
  obtain ⟨w, hw, heq⟩ := Option.map_eq_some_iff.mp hn
  cases heq
  exact mem_of_valueOf? hw

/-- A field is absent and has its default, or its value is that of an entry. -/
theorem fieldOr_ok {α : Type} {default a : α} {names : List String} {decode : Datum → Checked α}
    {es : List (Datum × Datum)} (h : fieldOr default names decode es = .ok a) :
    a = default ∨ ∃ e ∈ es, decode e.2 = .ok a := by
  rw [fieldOr] at h
  split at h
  · exact .inl (ok.inj h).symm
  · rename_i name v hv
    obtain ⟨k, hk⟩ := mem_of_lookupField hv
    exact .inr ⟨(k, v), hk, ok_of_within h⟩

theorem decodePart_ok {α : Type} {name : String} {decode : List (Datum × Datum) → Checked α}
    {d : Datum} {a : α} (h : decodePart name decode d = .ok a) :
    ∃ es, d = .mapping es ∧ decode (presentEntries es) = .ok a := by
  unfold decodePart at h
  split at h
  · exact ⟨_, rfl, h⟩
  · cases h

theorem isDocument_of_mem {es : List (Datum × Datum)} (hes : (Datum.mapping es).isDocument = true)
    {e : Datum × Datum} (he : e ∈ es) : e.2.isDocument = true := by
  rw [Datum.isDocument] at hes
  exact (Datum.entriesAreDocuments_iff.mp hes e he).2

theorem isDocument_of_mem_present {es : List (Datum × Datum)}
    (hes : (Datum.mapping es).isDocument = true) {e : Datum × Datum} (he : e ∈ presentEntries es) :
    e.2.isDocument = true :=
  isDocument_of_mem hes (List.mem_filter.mp he).1

/-! ## Named values -/

theorem mem_of_go {α : Type} {value : Datum → Checked α} {es : List (Datum × Datum)}
    {pairs : List (String × α)} (h : entriesOf.go value es = .ok pairs) {p : String × α}
    (hp : p ∈ pairs) : ∃ e ∈ es, value e.2 = .ok p.2 := by
  induction es generalizing pairs with
  | nil =>
    cases h
    cases hp
  | cons e es ih =>
    obtain ⟨k, v⟩ := e
    rw [entriesOf.go] at h
    obtain ⟨_, more, h₁, hmore, rfl⟩ := ok_of_seq h
    obtain ⟨_, x, h₂, hx, rfl⟩ := ok_of_seq h₁
    obtain ⟨name, -, rfl⟩ := ok_of_map h₂
    rcases List.mem_cons.mp hp with rfl | hp
    · exact ⟨(k, v), List.mem_cons_self, ok_of_within hx⟩
    · obtain ⟨e, he, hv⟩ := ih hmore hp
      exact ⟨e, List.mem_cons_of_mem _ he, hv⟩

/-- The values of a dictionary are those of its entries, and each name occurs once. -/
theorem dictionary_ok {α : Type} {value : Datum → Checked α} {d : Datum}
    {out : List (String × α)} (h : dictionary value d = .ok out) :
    ∃ es, d = .mapping es ∧ (out.map Prod.fst).Nodup ∧
      ∀ p ∈ out, ∃ e ∈ es, value e.2 = .ok p.2 := by
  unfold dictionary at h
  split at h
  · rename_i es
    obtain ⟨pairs, hpairs, rfl⟩ := ok_of_map h
    exact ⟨es, rfl, Entries.nodup_ofPairs pairs, fun p hp =>
      mem_of_go hpairs (Entries.mem_ofPairs hp)⟩
  · cases h

theorem isDocument_of_entries {d : Datum} {out : Entries} (hd : d.isDocument = true)
    (h : entries d = .ok out) : ∀ e ∈ out, e.2.isDocument = true := by
  obtain ⟨es, rfl, -, hvalues⟩ := dictionary_ok h
  intro p hp
  obtain ⟨e, he, hvalue⟩ := hvalues p hp
  rw [← ok.inj hvalue]
  exact isDocument_of_mem hd he

/-- The same for a field of named values that may be absent. -/
theorem isDocument_of_entriesField {names : List String} {es : List (Datum × Datum)} {out : Entries}
    (hes : (Datum.mapping es).isDocument = true)
    (h : fieldOr [] names entries (presentEntries es) = .ok out) :
    ∀ e ∈ out, e.2.isDocument = true := by
  rcases fieldOr_ok h with rfl | ⟨e, he, hentries⟩
  · simp
  · exact isDocument_of_entries (isDocument_of_mem_present hes he) hentries

/-! ## Parts -/

theorem metadata_field {d : Datum} {m : Metadata} (h : Metadata.decode d = .ok m) :
    ∃ es, d = .mapping es ∧ fieldOr [] ["tags"] entries (presentEntries es) = .ok m.tags := by
  obtain ⟨es, hd, h⟩ := decodePart_ok h
  obtain ⟨_, extras, h₁, -, rfl⟩ := ok_of_seq h
  obtain ⟨_, tags, h₂, htags, rfl⟩ := ok_of_seq h₁
  obtain ⟨_, region, h₃, -, rfl⟩ := ok_of_seq h₂
  obtain ⟨_, provider, h₄, -, rfl⟩ := ok_of_seq h₃
  obtain ⟨_, environment, h₅, -, rfl⟩ := ok_of_seq h₄
  obtain ⟨name, -, rfl⟩ := ok_of_map h₅
  exact ⟨es, hd, htags⟩

theorem workload_fields {d : Datum} {w : Workload} (h : Workload.decode d = .ok w) :
    ∃ es, d = .mapping es ∧
      fieldOr "container" ["type"] workloadType (presentEntries es) = .ok w.type ∧
      fieldOr [] ["environment"] entries (presentEntries es) = .ok w.environment := by
  obtain ⟨es, hd, h⟩ := decodePart_ok h
  obtain ⟨_, extras, h₁, -, rfl⟩ := ok_of_seq h
  obtain ⟨_, labels, h₂, -, rfl⟩ := ok_of_seq h₁
  obtain ⟨_, sideCar, h₃, -, rfl⟩ := ok_of_seq h₂
  obtain ⟨_, dependsOn, h₄, -, rfl⟩ := ok_of_seq h₃
  obtain ⟨_, volumes, h₅, -, rfl⟩ := ok_of_seq h₄
  obtain ⟨_, scaling, h₆, -, rfl⟩ := ok_of_seq h₅
  obtain ⟨_, healthCheck, h₇, -, rfl⟩ := ok_of_seq h₆
  obtain ⟨_, backup, h₈, -, rfl⟩ := ok_of_seq h₇
  obtain ⟨_, environment, h₉, henvironment, rfl⟩ := ok_of_seq h₈
  obtain ⟨_, replicas, h₁₀, -, rfl⟩ := ok_of_seq h₉
  obtain ⟨_, ports, h₁₁, -, rfl⟩ := ok_of_seq h₁₀
  obtain ⟨_, resources, h₁₂, -, rfl⟩ := ok_of_seq h₁₁
  obtain ⟨_, version, h₁₃, -, rfl⟩ := ok_of_seq h₁₂
  obtain ⟨_, engine, h₁₄, -, rfl⟩ := ok_of_seq h₁₃
  obtain ⟨_, handler, h₁₅, -, rfl⟩ := ok_of_seq h₁₄
  obtain ⟨_, runtime, h₁₆, -, rfl⟩ := ok_of_seq h₁₅
  obtain ⟨_, image, h₁₇, -, rfl⟩ := ok_of_seq h₁₆
  obtain ⟨type, htype, rfl⟩ := ok_of_map h₁₇
  exact ⟨es, hd, htype, henvironment⟩

theorem spec_fields {d : Datum} {s : Spec} (h : Spec.decode d = .ok s) :
    ∃ es, d = .mapping es ∧
      fieldOr {} ["metadata"] Metadata.decode (presentEntries es) = .ok s.metadata ∧
      fieldOr [] ["workloads"] decodeWorkloads (presentEntries es) = .ok s.workloads := by
  obtain ⟨es, hd, h⟩ := decodePart_ok h
  obtain ⟨_, extras, h₁, -, rfl⟩ := ok_of_seq h
  obtain ⟨_, resources, h₂, -, rfl⟩ := ok_of_seq h₁
  obtain ⟨_, workloads, h₃, hworkloads, rfl⟩ := ok_of_seq h₂
  obtain ⟨_, metadata, h₄, hmetadata, rfl⟩ := ok_of_seq h₃
  obtain ⟨apiVersion, -, rfl⟩ := ok_of_map h₄
  exact ⟨es, hd, hmetadata, hworkloads⟩

/-! ## Names -/

theorem isWorkloadName_of_workloadType {d : Datum} {t : String} (h : workloadType d = .ok t) :
    Text.isWorkloadName t = true := by
  obtain ⟨s, -, h⟩ := ok_of_andThen h
  split at h
  · rename_i hs
    rw [← ok.inj h]
    exact hs
  · cases h

theorem isWorkloadName_of_workload {d : Datum} {w : Workload} (h : Workload.decode d = .ok w) :
    Text.isWorkloadName w.type = true := by
  obtain ⟨es, -, htype, -⟩ := workload_fields h
  rcases fieldOr_ok htype with heq | ⟨e, -, he⟩
  · rw [heq]
    decide
  · exact isWorkloadName_of_workloadType he

/-- The workloads are those of a dictionary whose names have passed the check. -/
theorem decodeWorkloads_ok {d : Datum} {ws : List (String × Workload)}
    (h : decodeWorkloads d = .ok ws) :
    dictionary Workload.decode d = .ok ws ∧ ∀ w ∈ ws, Text.isWorkloadName w.1 = true := by
  obtain ⟨ws', hws, h⟩ := ok_of_andThen h
  rw [checkWorkloadNames] at h
  split at h
  · rename_i hfind
    rw [← ok.inj h]
    refine ⟨hws, fun w hw => ?_⟩
    simpa using List.find?_eq_none.mp hfind w hw
  · cases h

theorem named_of_decode {d : Datum} {s : Spec} (h : Spec.decode d = .ok s) : s.Named := by
  obtain ⟨es, -, -, hworkloads⟩ := spec_fields h
  rcases fieldOr_ok hworkloads with heq | ⟨e, -, he⟩
  · exact ⟨by simp [heq], by simp [heq], by simp [heq]⟩
  · obtain ⟨hdictionary, hnames⟩ := decodeWorkloads_ok he
    obtain ⟨_, -, hdistinct, hvalues⟩ := dictionary_ok hdictionary
    refine ⟨hnames, hdistinct, fun w hw => ?_⟩
    obtain ⟨_, -, hw⟩ := hvalues w hw
    exact isWorkloadName_of_workload hw

/-! ## Documents -/

theorem isDocument_of_metadata {d : Datum} {m : Metadata} (hd : d.isDocument = true)
    (h : Metadata.decode d = .ok m) : ∀ e ∈ m.tags, e.2.isDocument = true := by
  obtain ⟨es, rfl, htags⟩ := metadata_field h
  exact isDocument_of_entriesField hd htags

theorem isDocument_of_workload {d : Datum} {w : Workload} (hd : d.isDocument = true)
    (h : Workload.decode d = .ok w) : ∀ e ∈ w.environment, e.2.isDocument = true := by
  obtain ⟨es, rfl, -, henvironment⟩ := workload_fields h
  exact isDocument_of_entriesField hd henvironment

theorem isDocument_of_workloads {d : Datum} {ws : List (String × Workload)}
    (hd : d.isDocument = true) (h : decodeWorkloads d = .ok ws) :
    ∀ w ∈ ws, ∀ e ∈ w.2.environment, e.2.isDocument = true := by
  obtain ⟨hdictionary, -⟩ := decodeWorkloads_ok h
  obtain ⟨es, rfl, -, hvalues⟩ := dictionary_ok hdictionary
  intro w hw
  obtain ⟨e, he, hdecode⟩ := hvalues w hw
  exact isDocument_of_workload (isDocument_of_mem hd he) hdecode

theorem holdsDocuments_of_decode {d : Datum} {s : Spec} (hd : d.isDocument = true)
    (h : Spec.decode d = .ok s) : s.HoldsDocuments := by
  obtain ⟨es, rfl, hmetadata, hworkloads⟩ := spec_fields h
  constructor
  · rcases fieldOr_ok hmetadata with heq | ⟨e, he, hdecode⟩
    · simp [heq]
    · exact isDocument_of_metadata (isDocument_of_mem_present hd he) hdecode
  · rcases fieldOr_ok hworkloads with heq | ⟨e, he, hdecode⟩
    · simp [heq]
    · exact isDocument_of_workloads (isDocument_of_mem_present hd he) hdecode

/-- What is decoded from a document is accepted. -/
theorem accepted_of_decode {d : Datum} {s : Spec} (hd : d.isDocument = true)
    (h : Spec.decode d = .ok s) : s.Accepted :=
  (named_of_decode h).accepted (holdsDocuments_of_decode hd h)

end Spec
end Groundplan
