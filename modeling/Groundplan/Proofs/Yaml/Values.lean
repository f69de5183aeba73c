/-
What can be wrong with the values of a text.

A text that has a tree can still hold a scalar whose type admits no such value.  Values
are made level by level and the fault nearest to the root is kept, so the fault of a
document is a problem of form or that of one of its typed texts; which of them it is does
not matter here.
-/
import Groundplan.Proofs.Yaml.Faults
import Groundplan.Yaml.Value

namespace Groundplan
namespace Yaml

/-- The types that do not admit every text. -/
def typedTags : List String := [Tag.bool, Tag.int, Tag.float, Tag.timestamp]

/-- Somewhere in the tree a text is taken for a value of a type.  A mapping that is tagged
as a scalar stands for the text of its default key. -/
inductive Node.Holds : Node → String → String → Prop
  | scalar (tag text : String) : Holds (.scalar tag text) tag text
  | ofDefault {tag text : String} {entries : List (Node × Node)}
      (h : scalarText (.mapping tag entries) = some text) : Holds (.mapping tag entries) tag text
  | item {tag text own : String} {items : List Node} {n : Node} (hn : n ∈ items)
      (h : Holds n tag text) : Holds (.sequence own items) tag text
  | key {tag text own : String} {entries : List (Node × Node)} {e : Node × Node} (he : e ∈ entries)
      (h : Holds e.1 tag text) : Holds (.mapping own entries) tag text
  | value {tag text own : String} {entries : List (Node × Node)} {e : Node × Node}
      (he : e ∈ entries) (h : Holds e.2 tag text) : Holds (.mapping own entries) tag text

/-- The node holds a text that is no value of its type. -/
def Node.HoldsFault (n : Node) (f : Fault) : Prop :=
  ∃ tag ∈ typedTags, ∃ text, n.Holds tag text ∧ scalarValue tag text = .error f

/-- A fault of form, or that of a text in the tree. -/
def IsOf (f : Fault) (n : Node) : Prop := f.IsOfForm ∨ n.HoldsFault f

/-! ## Scalars -/

theorem isOfForm_treeFault (problem : Problem) : (treeFault problem).IsOfForm := ⟨problem, 1, 1, rfl⟩

/-- Texts of other types are at fault for their form only. -/
theorem scalarValue_fault {tag text : String} {f : Fault} (h : scalarValue tag text = .error f) :
    f.IsOfForm ∨ tag ∈ typedTags := by
  by_cases htyped : tag ∈ typedTags
  · exact .inr htyped
  left
  simp only [typedTags, List.mem_cons, List.not_mem_nil, or_false, not_or] at htyped
  obtain ⟨hbool, hint, hfloat, htimestamp⟩ := htyped
  rw [scalarValue] at h
  simp only [if_neg hbool, if_neg hint, if_neg hfloat, if_neg htimestamp] at h
  split at h
  · cases h
  split at h
  · cases h
  split at h
  · split at h
    · split at h
      · cases h
      · cases h
        exact isOfForm_treeFault _
    · cases h
      exact isOfForm_treeFault _
  · cases h
    exact isOfForm_treeFault _

theorem isOf_of_scalarValue {n : Node} {tag text : String} (hn : n.Holds tag text) {depth : Nat}
    {e : Nat × Fault} (h : (scalarValue tag text).mapError (fun f => (depth, f)) = .error e) :
    IsOf e.2 n := by
  cases hvalue : scalarValue tag text with
  | ok d =>
    rw [hvalue] at h
    cases h
  | error f =>
    rw [hvalue] at h
    cases h
    exact (scalarValue_fault hvalue).imp_right fun htag => ⟨tag, htag, text, hn, hvalue⟩

/-! ## Trees -/

theorem Outcome.error_of_both {α β γ : Type} {f : α → β → γ} {x : Outcome α} {y : Outcome β}
    {e : Nat × Fault} (h : Outcome.both f x y = .error e) : x = .error e ∨ y = .error e := by
  cases x with
  | ok a =>
    cases y with
    | ok b => cases h
    | error e' =>
      cases h
      exact .inr rfl
  | error d =>
    cases y with
    | ok b =>
      cases h
      exact .inl rfl
    | error e' =>
      rw [Outcome.both] at h
      split at h
      · cases h
        exact .inr rfl
      · cases h
        exact .inl rfl

theorem error_of_map {ε α β : Type} {f : α → β} {x : Except ε α} {e : ε} (h : x.map f = .error e) :
    x = .error e := by
  cases x with
  | ok a => cases h
  | error e' => exact congrArg Except.error (Except.error.inj h)

theorem IsOf.item {f : Fault} {n : Node} {own : String} {items : List Node} (hn : n ∈ items)
    (h : IsOf f n) : IsOf f (.sequence own items) := by
  refine h.imp_right fun hholds => ?_
  obtain ⟨tag, htag, text, hholds, hvalue⟩ := hholds
  exact ⟨tag, htag, text, .item hn hholds, hvalue⟩

theorem IsOf.key {f : Fault} {e : Node × Node} {own : String} {entries : List (Node × Node)}
    (he : e ∈ entries) (h : IsOf f e.1) : IsOf f (.mapping own entries) := by
  refine h.imp_right fun hholds => ?_
  obtain ⟨tag, htag, text, hholds, hvalue⟩ := hholds
  exact ⟨tag, htag, text, .key he hholds, hvalue⟩

theorem IsOf.value {f : Fault} {e : Node × Node} {own : String} {entries : List (Node × Node)}
    (he : e ∈ entries) (h : IsOf f e.2) : IsOf f (.mapping own entries) := by
  refine h.imp_right fun hholds => ?_
  obtain ⟨tag, htag, text, hholds, hvalue⟩ := hholds
  exact ⟨tag, htag, text, .value he hholds, hvalue⟩

mutual
/-- The fault of a node is one of form or that of a text in it.  One case for each kind of
node, after the tags that the kind may have. -/
theorem isOf_of_construct : ∀ {n : Node} {depth : Nat} {e : Nat × Fault},
    construct depth n = .error e → IsOf e.2 n
  | .scalar t s, depth, e, h => by
    rw [construct] at h
    split at h
    · exact isOf_of_scalarValue (.scalar t s) h
    · split at h
      · cases h
        exact .inl (isOfForm_treeFault _)
      · cases h
        exact .inl (isOfForm_treeFault _)
  | .sequence t items, depth, e, h => by
    rw [construct] at h
    split at h
    · obtain ⟨n, hn, hof⟩ := isOf_of_constructAll (error_of_map h)
      exact hof.item hn
    split at h
    · rcases isOf_of_constructPairs (error_of_map h) with hform | ⟨n, hn, hof⟩
      · exact .inl hform
      · exact hof.item hn
    split at h
    · cases h
      exact .inl (isOfForm_treeFault _)
    split at h
    · cases h
      exact .inl (isOfForm_treeFault _)
    · cases h
      exact .inl (isOfForm_treeFault _)
  | .mapping t entries, depth, e, h => by
    have hentries : ∀ {d : Nat}, constructEntries d entries = .error e → IsOf e.2 (.mapping t entries) := by
      intro d hd
      rcases isOf_of_constructEntries hd with hform | ⟨entry, hentry, hof | hof⟩
      · exact .inl hform
      · exact hof.key hentry
      · exact hof.value hentry
    rw [construct] at h
    split at h
    · exact hentries (error_of_map h)
    split at h
    · exact hentries (error_of_map h)
    split at h
    · cases h
      exact .inl (isOfForm_treeFault _)
    split at h
    · cases h
      exact .inl (isOfForm_treeFault _)
    split at h
    · split at h
      · rename_i s hs
        exact isOf_of_scalarValue (.ofDefault hs) h
      · cases h
        exact .inl (isOfForm_treeFault _)
    · cases h
      exact .inl (isOfForm_treeFault _)

theorem isOf_of_constructAll : ∀ {ns : List Node} {depth : Nat} {e : Nat × Fault},
    constructAll depth ns = .error e → ∃ n ∈ ns, IsOf e.2 n
  | [], _, _, h => by
    rw [constructAll] at h
    cases h
  | n :: ns, depth, e, h => by
    rw [constructAll] at h
    rcases Outcome.error_of_both h with h | h
    · exact ⟨n, List.mem_cons_self, isOf_of_construct h⟩
    · obtain ⟨m, hm, hof⟩ := isOf_of_constructAll h
      exact ⟨m, List.mem_cons_of_mem n hm, hof⟩

theorem isOf_of_constructPairs : ∀ {ns : List Node} {depth : Nat} {e : Nat × Fault},
    constructPairs depth ns = .error e → e.2.IsOfForm ∨ ∃ n ∈ ns, IsOf e.2 n
  | [], _, _, h => by
    rw [constructPairs] at h
    cases h
  | .mapping t [(k, v)] :: ns, depth, e, h => by
    rw [constructPairs] at h
    rcases Outcome.error_of_both h with h | h
    · refine .inr ⟨_, List.mem_cons_self, ?_⟩
      rcases Outcome.error_of_both h with h | h
      · exact (isOf_of_construct h).key (e := (k, v)) List.mem_cons_self
      · exact (isOf_of_construct h).value (e := (k, v)) List.mem_cons_self
    · refine (isOf_of_constructPairs h).imp_right fun hrest => ?_
      obtain ⟨m, hm, hof⟩ := hrest
      exact ⟨m, List.mem_cons_of_mem _ hm, hof⟩
  | .mapping _ [] :: _, _, _, h => by
    rw [constructPairs] at h
    · cases h
      exact .inl (isOfForm_treeFault _)
    · simp
  | .mapping _ (_ :: _ :: _) :: _, _, _, h => by
    rw [constructPairs] at h
    · cases h
      exact .inl (isOfForm_treeFault _)
    · simp
  | .scalar _ _ :: _, _, _, h => by
    rw [constructPairs] at h
    · cases h
      exact .inl (isOfForm_treeFault _)
    · simp
  | .sequence _ _ :: _, _, _, h => by
    rw [constructPairs] at h
    · cases h
      exact .inl (isOfForm_treeFault _)
    · simp

theorem isOf_of_constructEntries : ∀ {es : List (Node × Node)} {depth : Nat} {e : Nat × Fault},
    constructEntries depth es = .error e →
      e.2.IsOfForm ∨ ∃ entry ∈ es, IsOf e.2 entry.1 ∨ IsOf e.2 entry.2
  | [], _, _, h => by
    rw [constructEntries] at h
    cases h
  | (k, v) :: rest, depth, e, h => by
    rw [constructEntries] at h
    rcases Outcome.error_of_both h with h | h
    · rcases Outcome.error_of_both h with hkey | hvalue
      · split at hkey
        · split at hkey
          · cases hkey
          · cases hkey
            exact .inl (isOfForm_treeFault _)
        · rename_i fault hfault
          split at hkey
          · cases hkey
            exact .inl (isOfForm_treeFault _)
          · cases hkey
            exact .inr ⟨(k, v), List.mem_cons_self, .inl (isOf_of_construct hfault)⟩
      · exact .inr ⟨(k, v), List.mem_cons_self, .inr (isOf_of_construct hvalue)⟩
    · refine (isOf_of_constructEntries h).imp_right fun hrest => ?_
      obtain ⟨entry, hentry, hof⟩ := hrest
      exact ⟨entry, List.mem_cons_of_mem _ hentry, hof⟩
end

/-! ## Documents -/

end Yaml
end Groundplan
