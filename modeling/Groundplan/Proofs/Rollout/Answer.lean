/-
Which answers about services can be understood.

An answer of the cloud's command line is read one step after the other, and any step may
find something it cannot work on.  The conditions here say the same of the document as a
whole, in terms of what is in it, so that nothing else has to follow the reading.  A text
that is no document at all is fine everywhere, since it is taken for an answer that says
nothing, unless it has an integer with too many digits.
-/
import Groundplan.Proofs.Datum.Entries
import Groundplan.Proofs.Number.Spelling
import Groundplan.Proofs.Result
import Groundplan.Rollout.Service

namespace Groundplan
namespace Rollout

namespace Answer

/-! ## What a document has -/

/-- The value of a member among the entries of a mapping, or the given one if it is
absent. -/
inductive IsMember (name : String) (default : Datum) : List (Datum × Datum) → Datum → Prop
  | present {front back : List (Datum × Datum)} {value : Datum} :
      (∀ e ∈ front, e.1 ≠ .text name) → IsMember name default (front ++ (.text name, value) :: back) value
  | absent {entries : List (Datum × Datum)} :
      (∀ e ∈ entries, e.1 ≠ .text name) → IsMember name default entries default

/-- The items of a value: a text has its characters and a mapping its keys. -/
inductive HasItems : Datum → List Datum → Prop
  | list (xs : List Datum) : HasItems (.list xs) xs
  | text (s : String) : HasItems (.text s) (s.toList.map fun c => .text (String.singleton c))
  | mapping (entries : List (Datum × Datum)) : HasItems (.mapping entries) (entries.map Prod.fst)

/-- A value that counts as nothing. -/
inductive IsNothing : Datum → Prop
  | null : IsNothing .null
  | false : IsNothing (.bool false)
  | int : IsNothing (.int 0)
  | float (negative : Bool) (e : Int) : IsNothing (.float (.finite negative 0 e))
  | text : IsNothing (.text "")
  | bytes : IsNothing (.bytes [])
  | list : IsNothing (.list [])
  | tuple : IsNothing (.tuple [])
  | set : IsNothing (.set [])
  | mapping : IsNothing (.mapping [])

/-- The whole part of `m * 2 ^ e`. -/
def IsWholePart (m : Nat) (e : Int) (k : Nat) : Prop :=
  k * 2 ^ (-e).toNat ≤ m * 2 ^ e.toNat ∧ m * 2 ^ e.toNat < (k + 1) * 2 ^ (-e).toNat

/-- The integer that a value stands for.  A fraction is dropped, and a text has to spell an
integer with not too many digits. -/
inductive Counts : Datum → Int → Prop
  | false : Counts (.bool false) 0
  | true : Counts (.bool true) 1
  | int (n : Int) : Counts (.int n) n
  | float {negative : Bool} {m : Nat} {e : Int} {k : Nat} : IsWholePart m e k →
      Counts (.float (.finite negative m e)) (Binary64.signed negative k)
  | text {s : String} {negative : Bool} {ds : List Nat} : Number.Spells s negative ds →
      ds.length ≤ Number.maxDigits →
      Counts (.text s) (Binary64.signed negative (Nat.ofDigits 10 ds.reverse))

/-! ## How it is read -/

variable {name : String} {default value : Datum} {entries : List (Datum × Datum)}

theorem isMember_iff : IsMember name default entries value ↔
    ((entries.find? fun e => Datum.sameKey e.1 (.text name)).map Prod.snd).getD default = value := by
  have hother : ∀ es : List (Datum × Datum),
      (es.find? fun e => Datum.sameKey e.1 (.text name)) = none ↔ ∀ e ∈ es, e.1 ≠ .text name := by
    intro es
    simp only [List.find?_eq_none, Datum.sameKey_text_iff, ne_eq]
  constructor
  · intro h
    cases h with
    | present hfront =>
      rw [List.find?_append, (hother _).mpr hfront, Option.none_or,
        List.find?_cons, Datum.sameKey_text_iff.mpr rfl]
      rfl
    | absent habsent =>
      rw [(hother _).mpr habsent]
      rfl
  · rintro rfl
    cases hfind : entries.find? fun e => Datum.sameKey e.1 (.text name) with
    | none => exact .absent ((hother _).mp hfind)
    | some e =>
      obtain ⟨hkey, front, back, rfl, hfront⟩ := List.find?_eq_some_iff_append.mp hfind
      obtain ⟨key, value⟩ := e
      cases Datum.sameKey_text_iff.mp hkey
      refine .present fun e he hsame => ?_
      have hdiffers := hfront e he
      rw [Datum.sameKey_text_iff.mpr hsame] at hdiffers
      cases hdiffers

theorem member_ok_iff {document : Datum} : member name default document = .ok value ↔
    ∃ entries, document = .mapping entries ∧ IsMember name default entries value := by
  cases document with
  | mapping entries => simp [member, isMember_iff]
  | _ => simp [member]

theorem member_mapping (h : IsMember name default entries value) :
    member name default (.mapping entries) = .ok value :=
  member_ok_iff.mpr ⟨entries, rfl, h⟩

theorem exists_isMember (name : String) (default : Datum) (entries : List (Datum × Datum)) :
    ∃ value, IsMember name default entries value :=
  ⟨_, isMember_iff.mpr rfl⟩

theorem IsMember.unique {value' : Datum} (h : IsMember name default entries value)
    (h' : IsMember name default entries value') : value = value' :=
  (isMember_iff.mp h).symm.trans (isMember_iff.mp h')

theorem items_ok_iff {xs : List Datum} : items value = .ok xs ↔ HasItems value xs := by
  constructor
  · intro h
    cases value with
    | list xs =>
      cases h
      exact .list _
    | text s =>
      cases h
      exact .text s
    | mapping entries =>
      cases h
      exact .mapping entries
    | _ => cases h
  · intro h
    cases h <;> rfl

theorem equal_zero_iff {x : Binary64} :
    x.equal .zero = true ↔ ∃ negative e, x = .finite negative 0 e := by
  rw [Binary64.equal, Bool.and_eq_true]
  cases x with
  | nan => simp [Binary64.le]
  | infinite negative => cases negative <;> simp [Binary64.le, Binary64.zero]
  | finite negative m e =>
    have hscale : ∀ k, m * Nat.pow 2 k = 0 → m = 0 := fun k h =>
      (Nat.mul_eq_zero.mp h).resolve_right (Nat.pow_pos (by decide)).ne'
    have hsigned : ∀ n : Nat, Binary64.signed negative n ≤ 0 ∧ 0 ≤ Binary64.signed negative n ↔ n = 0 := by
      intro n
      cases negative <;> simp [Binary64.signed]
    have hzero : ∀ k, Binary64.signed false (0 * Nat.pow 2 k) = 0 := by simp [Binary64.signed]
    simp only [Binary64.le, Binary64.zero, hzero, decide_eq_true_eq]
    rw [min_comm Binary64.minExponent e, hsigned]
    constructor
    · intro h
      rw [hscale _ h]
      exact ⟨negative, e, rfl⟩
    · rintro ⟨negative', e', heq⟩
      cases heq
      exact Nat.zero_mul _

theorem isNothing_iff : value.isNothing = true ↔ IsNothing value := by
  constructor
  · intro h
    cases value with
    | null => exact .null
    | bool b =>
      cases b with
      | false => exact .false
      | true => cases h
    | int n =>
      rw [Datum.isNothing, beq_iff_eq] at h
      rw [h]
      exact .int
    | float x =>
      obtain ⟨negative, e, rfl⟩ := equal_zero_iff.mp h
      exact .float negative e
    | text s =>
      rw [Datum.isNothing, String.isEmpty_iff] at h
      rw [h]
      exact .text
    | bytes bs =>
      rw [List.isEmpty_iff.mp h]
      exact .bytes
    | list xs =>
      rw [List.isEmpty_iff.mp h]
      exact .list
    | tuple xs =>
      rw [List.isEmpty_iff.mp h]
      exact .tuple
    | set xs =>
      rw [List.isEmpty_iff.mp h]
      exact .set
    | mapping entries =>
      rw [List.isEmpty_iff.mp h]
      exact .mapping
    | _ => cases h
  · intro h
    cases h with
    | float negative e => exact equal_zero_iff.mpr ⟨negative, e, rfl⟩
    | _ => rfl

theorem isWholePart_iff {m k : Nat} {e : Int} :
    IsWholePart m e k ↔ m * 2 ^ e.toNat / 2 ^ (-e).toNat = k := by
  have hpos : 0 < 2 ^ (-e).toNat := Nat.two_pow_pos _
  rw [IsWholePart, ← Nat.le_div_iff_mul_le hpos, ← Nat.div_lt_iff_lt_mul hpos]
  omega

theorem truncate?_finite (negative : Bool) (m : Nat) (e : Int) :
    (Binary64.finite negative m e).truncate? =
      some (Binary64.signed negative (m * 2 ^ e.toNat / 2 ^ (-e).toNat)) := by
  have hdiv : ∀ num den : Nat, (Binary64.signed negative num).tdiv den =
      Binary64.signed negative (num / den) := by
    intro num den
    cases negative with
    | false => rfl
    | true => exact Int.neg_tdiv _ _
  show some ((Binary64.signed negative (Binary64.scaleRatio m 1 e).1).tdiv
    (Binary64.scaleRatio m 1 e).2) = _
  rw [hdiv, Binary64.scaleRatio]
  -- One of the two exponents is zero.
  by_cases he : 0 ≤ e
  · have hnone : (-e).toNat = 0 := by omega
    rw [if_pos he, hnone]
    rfl
  · have hnone : e.toNat = 0 := by omega
    rw [if_neg he, hnone, Nat.pow_zero, Nat.mul_one, Nat.one_mul]
    rfl

theorem integer_finite (negative : Bool) (m : Nat) (e : Int) :
    integer (.float (.finite negative m e)) =
      .ok (Binary64.signed negative (m * 2 ^ e.toNat / 2 ^ (-e).toNat)) := by
  rw [integer, truncate?_finite]
  exact fun h => nomatch h

theorem integer_text {s : String} {n : Int} : integer (.text s) = .ok n ↔
    Number.excessDigits? s = none ∧ Number.parseInt? 10 s = some n := by
  rw [integer]
  cases Number.excessDigits? s with
  | some count => simp
  | none => cases Number.parseInt? 10 s <;> simp

theorem integer_ok_iff {n : Int} : integer value = .ok n ↔ Counts value n := by
  constructor
  · intro h
    cases value with
    | bool b => cases b <;> cases h <;> constructor
    | int m =>
      cases h
      exact .int _
    | float x =>
      cases x with
      | nan => cases h
      | infinite negative => cases h
      | finite negative m e =>
        rw [integer_finite] at h
        cases h
        exact .float (isWholePart_iff.mpr rfl)
    | text s =>
      obtain ⟨negative, ds, hspells, hbound, rfl⟩ := Number.readsInteger_iff.mp (integer_text.mp h)
      exact .text hspells hbound
    | _ => cases h
  · intro h
    cases h with
    | false => rfl
    | true => rfl
    | int => rfl
    | float hwhole =>
      rw [integer_finite, isWholePart_iff.mp hwhole]
    | text hspells hbound =>
      exact integer_text.mpr (Number.readsInteger_iff.mpr ⟨_, _, hspells, hbound, rfl⟩)

end Answer

/-! ## Reports on a service -/

open Answer (IsMember HasItems IsNothing Counts)

/-- The number of running tasks that a document comes down to, by what it has and has not. -/
inductive Reports : Datum → Int → Prop
  /-- There is no service. -/
  | none {entries : List (Datum × Datum)} {services : Datum} :
      IsMember "services" (.list []) entries services → IsNothing services →
      Reports (.mapping entries) 0
  /-- The service has been deleted. -/
  | inactive {entries members : List (Datum × Datum)} {others : List Datum} :
      IsMember "services" (.list []) entries (.list (.mapping members :: others)) →
      IsMember "status" .null members (.text "INACTIVE") → Reports (.mapping entries) 0
  /-- The service runs a number of tasks. -/
  | counted {entries members : List (Datum × Datum)} {others : List Datum} {status count : Datum}
      {n : Int} : IsMember "services" (.list []) entries (.list (.mapping members :: others)) →
      IsMember "status" .null members status → status ≠ .text "INACTIVE" →
      IsMember "runningCount" (.int 0) members count → Counts count n →
      Reports (.mapping entries) n

/-- A document says of the first service it describes, or of there being none, that nothing is
running. -/
inductive SaysIdle : Datum → Prop
  /-- No service is described. -/
  | none {entries : List (Datum × Datum)} {services : Datum} :
      IsMember "services" (.list []) entries services → IsNothing services →
      SaysIdle (.mapping entries)
  /-- The service has been deleted. -/
  | inactive {entries members : List (Datum × Datum)} {others : List Datum} :
      IsMember "services" (.list []) entries (.list (.mapping members :: others)) →
      IsMember "status" .null members (.text "INACTIVE") → SaysIdle (.mapping entries)
  /-- The number of tasks is zero or absent. -/
  | idle {entries members : List (Datum × Datum)} {others : List Datum} {count : Datum} :
      IsMember "services" (.list []) entries (.list (.mapping members :: others)) →
      IsMember "runningCount" (.int 0) members count → Counts count 0 →
      SaysIdle (.mapping entries)

/-- An answer about one service that can be understood. -/
def DescribesService (answer : String) : Prop :=
  (∀ document, Json.parse answer = .ok document → ∃ n, Reports document n) ∧
    ∀ count, Json.parse answer ≠ .error (.digits count)

theorem saysIdle_iff {document : Datum} : SaysIdle document ↔ Reports document 0 := by
  constructor
  · intro h
    cases h with
    | none hservices hnothing => exact .none hservices hnothing
    | inactive hservices hstatus => exact .inactive hservices hstatus
    | @idle entries members others count hservices hcount hidle =>
      obtain ⟨status, hstatus⟩ := Answer.exists_isMember "status" .null members
      by_cases hinactive : status = .text "INACTIVE"
      · exact .inactive hservices (hinactive ▸ hstatus)
      · exact .counted hservices hstatus hinactive hcount hidle
  · intro h
    cases h with
    | none hservices hnothing => exact .none hservices hnothing
    | inactive hservices hstatus => exact .inactive hservices hstatus
    | counted hservices _ _ hcount hidle => exact .idle hservices hcount hidle

theorem first_eq_mapping {services : Datum} {members : List (Datum × Datum)}
    (h : Answer.first services = .ok (.mapping members)) :
    ∃ others, services = .list (.mapping members :: others) := by
  cases services with
  | list xs =>
    cases xs with
    | nil => cases h
    | cons x xs =>
      cases h
      exact ⟨xs, rfl⟩
  | _ => cases h

theorem not_isNothing_cons {x : Datum} {xs : List Datum} : (Datum.list (x :: xs)).isNothing ≠ true :=
  Bool.false_ne_true

theorem reports_of_runningCount {answer : String} {document : Datum} {count : Option Int}
    (hparse : Json.parse answer = .ok document) (h : runningCount answer = .ok count) :
    ∃ n, count = some n ∧ Reports document n := by
  rw [runningCount, hparse] at h
  obtain ⟨services, hread, hlisted⟩ := ok_of_bind h
  obtain ⟨entries, rfl, hservices⟩ := Answer.member_ok_iff.mp hread
  by_cases hnothing : services.isNothing = true
  · rw [if_pos hnothing] at hlisted
    cases hlisted
    exact ⟨0, rfl, .none hservices (Answer.isNothing_iff.mp hnothing)⟩
  · rw [if_neg hnothing] at hlisted
    obtain ⟨service, hfirst, hdescribed⟩ := ok_of_bind hlisted
    obtain ⟨status, hread, hcounted⟩ := ok_of_bind hdescribed
    obtain ⟨members, rfl, hstatus⟩ := Answer.member_ok_iff.mp hread
    obtain ⟨others, rfl⟩ := first_eq_mapping hfirst
    by_cases hinactive : Datum.sameKey status (.text "INACTIVE") = true
    · rw [if_pos hinactive] at hcounted
      cases hcounted
      rw [Datum.sameKey_text_iff] at hinactive
      exact ⟨0, rfl, .inactive hservices (hinactive ▸ hstatus)⟩
    · rw [if_neg hinactive] at hcounted
      obtain ⟨running, hread, hinteger⟩ := ok_of_bind hcounted
      obtain ⟨_, hmembers, hrunning⟩ := Answer.member_ok_iff.mp hread
      cases hmembers
      obtain ⟨n, hn, hcount⟩ := ok_of_bind hinteger
      cases hcount
      exact ⟨n, rfl, .counted hservices hstatus (mt Datum.sameKey_text_iff.mpr hinactive) hrunning
        (Answer.integer_ok_iff.mp hn)⟩

theorem runningCount_of_reports {answer : String} {document : Datum} {n : Int}
    (hparse : Json.parse answer = .ok document) (h : Reports document n) :
    runningCount answer = .ok (some n) := by
  rw [runningCount, hparse]
  dsimp only
  cases h with
  | none hservices hnothing =>
    rw [Answer.member_mapping hservices, ok_bind, if_pos (Answer.isNothing_iff.mpr hnothing)]
    rfl
  | inactive hservices hstatus =>
    rw [Answer.member_mapping hservices, ok_bind, if_neg not_isNothing_cons, Answer.first, ok_bind,
      Answer.member_mapping hstatus, ok_bind, if_pos (Datum.sameKey_text_iff.mpr rfl)]
    rfl
  | counted hservices hstatus hactive hcount hn =>
    rw [Answer.member_mapping hservices, ok_bind, if_neg not_isNothing_cons, Answer.first, ok_bind,
      Answer.member_mapping hstatus, ok_bind, if_neg (mt Datum.sameKey_text_iff.mp hactive),
      Answer.member_mapping hcount, ok_bind, Answer.integer_ok_iff.mpr hn]
    rfl

theorem runningCount_eq_some_iff {answer : String} {n : Int} : runningCount answer = .ok (some n) ↔
    ∃ document, Json.parse answer = .ok document ∧ Reports document n := by
  constructor
  · intro h
    cases hparse : Json.parse answer with
    | error fault =>
      rw [runningCount, hparse] at h
      cases fault <;> cases h
    | ok document =>
      obtain ⟨m, hm, hreports⟩ := reports_of_runningCount hparse h
      cases hm
      exact ⟨document, rfl, hreports⟩
  · rintro ⟨document, hparse, hreports⟩
    exact runningCount_of_reports hparse hreports

theorem runningCount_ok_iff {answer : String} :
    (∃ count, runningCount answer = .ok count) ↔ DescribesService answer := by
  constructor
  · rintro ⟨count, h⟩
    refine ⟨fun document hparse => ?_, fun digits hparse => ?_⟩
    · obtain ⟨n, -, hreports⟩ := reports_of_runningCount hparse h
      exact ⟨n, hreports⟩
    · rw [runningCount, hparse] at h
      cases h
  · rintro ⟨hdescribes, hdigits⟩
    cases hparse : Json.parse answer with
    | error fault =>
      cases fault with
      | malformed fault => exact ⟨none, by rw [runningCount, hparse]⟩
      | digits count => exact absurd hparse (hdigits count)
    | ok document =>
      obtain ⟨n, hreports⟩ := hdescribes document hparse
      exact ⟨some n, runningCount_of_reports hparse hreports⟩

/-! ## Lists of services -/

/-- A document lists services by their identifiers. -/
def ListsIds (document : Datum) (ids : List Datum) : Prop :=
  ∃ entries listed, document = .mapping entries ∧
    IsMember "serviceArns" (.list []) entries listed ∧ HasItems listed ids

/-- An answer that lists services, if any, by texts. -/
def ListsServices (answer : String) : Prop :=
  (∀ document, Json.parse answer = .ok document → ∃ ids, ListsIds document ids ∧
    ∀ id ∈ ids, ∃ identifier, id = .text identifier) ∧
  ∀ count, Json.parse answer ≠ .error (.digits count)

theorem serviceIds_eq_some_iff {answer : String} {ids : List Datum} :
    serviceIds answer = .ok (some ids) ↔
      ∃ document, Json.parse answer = .ok document ∧ ListsIds document ids := by
  constructor
  · intro h
    cases hparse : Json.parse answer with
    | error fault =>
      rw [serviceIds, hparse] at h
      cases fault <;> cases h
    | ok document =>
      rw [serviceIds, hparse] at h
      obtain ⟨listed, hread, hrest⟩ := ok_of_bind h
      obtain ⟨entries, rfl, hlisted⟩ := Answer.member_ok_iff.mp hread
      obtain ⟨items, hitems, hrest⟩ := ok_of_bind hrest
      cases hrest
      exact ⟨_, rfl, entries, listed, rfl, hlisted, Answer.items_ok_iff.mp hitems⟩
  · rintro ⟨document, hparse, entries, listed, rfl, hlisted, hitems⟩
    rw [serviceIds, hparse]
    dsimp only
    rw [Answer.member_mapping hlisted, ok_bind, Answer.items_ok_iff.mpr hitems]
    rfl

theorem serviceIds_eq_none_iff {answer : String} :
    serviceIds answer = .ok none ↔ ∃ fault, Json.parse answer = .error (.malformed fault) := by
  rw [serviceIds]
  cases Json.parse answer with
  | error fault => cases fault <;> simp
  | ok document =>
    simp only [reduceCtorEq, exists_false, iff_false]
    intro h
    obtain ⟨listed, -, h⟩ := ok_of_bind h
    obtain ⟨items, -, h⟩ := ok_of_bind h
    cases h

theorem serviceIds_ok_iff {answer : String} :
    (∃ ids, serviceIds answer = .ok ids ∧ ∀ id ∈ ids.getD [], ∃ identifier, id = .text identifier) ↔
      ListsServices answer := by
  constructor
  · rintro ⟨ids, hids, htexts⟩
    cases ids with
    | none =>
      obtain ⟨fault, hparse⟩ := serviceIds_eq_none_iff.mp hids
      refine ⟨fun document h => ?_, fun count h => ?_⟩
      · rw [hparse] at h
        cases h
      · rw [hparse] at h
        cases h
    | some ids =>
      obtain ⟨document, hparse, hlists⟩ := serviceIds_eq_some_iff.mp hids
      refine ⟨fun document' h => ?_, fun count h => ?_⟩
      · rw [hparse] at h
        cases h
        exact ⟨ids, hlists, htexts⟩
      · rw [hparse] at h
        cases h
  · rintro ⟨hlists, hdigits⟩
    cases hparse : Json.parse answer with
    | error fault =>
      cases fault with
      | malformed fault => exact ⟨none, serviceIds_eq_none_iff.mpr ⟨fault, hparse⟩, by simp⟩
      | digits count => exact absurd hparse (hdigits count)
    | ok document =>
      obtain ⟨ids, hids, htexts⟩ := hlists document hparse
      exact ⟨some ids, serviceIds_eq_some_iff.mpr ⟨document, hparse, hids⟩, htexts⟩

end Rollout
end Groundplan
