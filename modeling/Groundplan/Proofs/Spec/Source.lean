/-
Where specifications come from.

Both readers build document values only, so what `Spec.Accepted` asks for is promised
wherever a specification does not come from a program.  Names are tested whatever the
source is; `Spec.IsLoaded` stands for all of them.
-/
import Groundplan.Proofs.Hcl.Lines
import Groundplan.Proofs.Spec.Accepted
import Groundplan.Spec.File

namespace Groundplan

/-! ## JSON -/

namespace Json

theorem isDocument_of_readWord? {cs left : List Char} {d : Datum}
    (h : readWord? cs = some (d, left)) : d.isDocument = true := by
  obtain ⟨⟨word, value⟩, hw, hfound⟩ := List.exists_of_findSome?_eq_some h
  have hall : ∀ w ∈ words, w.2.isDocument = true := by decide
  dsimp only at hfound
  split at hfound
  · rw [← (Prod.mk.inj (Option.some.inj hfound)).1]
    exact hall _ hw
  · cases hfound

theorem isDocument_of_readNumber {cs left : List Char} {d : Datum}
    (h : readNumber cs = .ok (d, left)) : d.isDocument = true := by
  unfold readNumber at h
  split at h
  split at h
  · cases h
  · split at h
    split at h
    split at h
    · split at h
      · cases h
      · rw [← (Prod.mk.inj (Except.ok.inj h)).1]
        rfl
    · split at h
      · rw [← (Prod.mk.inj (Except.ok.inj h)).1]
        rfl
      · cases h

/-- The three readers are followed together, by induction on the fuel that they share. -/
theorem isDocument_of_read (fuel : Nat) :
    (∀ {cs left : List Char} {d : Datum}, readValue fuel cs = .ok (d, left) →
      d.isDocument = true) ∧
    (∀ {cs left : List Char} {ms : List (Datum × Datum)}, readMembers fuel cs = .ok (ms, left) →
      Datum.entriesAreDocuments ms = true) ∧
    (∀ {cs left : List Char} {xs : List Datum}, readItems fuel cs = .ok (xs, left) →
      Datum.areDocuments xs = true) := by
  induction fuel with
  | zero =>
    refine ⟨fun h => ?_, fun h => ?_, fun h => ?_⟩
    · cases h
    · cases h
    · cases h
  | succ fuel ih =>
    obtain ⟨ihValue, ihMembers, ihItems⟩ := ih
    refine ⟨fun {cs left d} h => ?_, fun {cs left ms} h => ?_, fun {cs left xs} h => ?_⟩
    · rw [readValue.eq_def] at h
      dsimp only at h
      split at h
      · obtain ⟨⟨s, more⟩, -, h⟩ := ok_of_bind h
        cases h
        rfl
      · split at h
        · cases h
          rfl
        · obtain ⟨⟨pairs, more⟩, hpairs, h⟩ := ok_of_bind h
          cases h
          exact Datum.isDocument_ofPairs (ihMembers hpairs)
      · split at h
        · cases h
          rfl
        · obtain ⟨⟨items, more⟩, hitems, h⟩ := ok_of_bind h
          cases h
          exact ihItems hitems
      · split at h
        · rename_i found hfound
          cases h
          exact isDocument_of_readWord? hfound
        · exact isDocument_of_readNumber h
    · rw [readMembers.eq_def] at h
      dsimp only at h
      split at h
      · obtain ⟨⟨name, afterName⟩, -, h⟩ := ok_of_bind h
        dsimp only at h
        split at h
        · obtain ⟨⟨value, afterValue⟩, hvalue, h⟩ := ok_of_bind h
          dsimp only at h
          split at h
          · cases h
            exact Datum.entriesAreDocuments_cons rfl (ihValue hvalue) rfl
          · obtain ⟨⟨members, more⟩, hmembers, h⟩ := ok_of_bind h
            cases h
            exact Datum.entriesAreDocuments_cons rfl (ihValue hvalue) (ihMembers hmembers)
          · cases h
        · cases h
      · cases h
    · rw [readItems.eq_def] at h
      obtain ⟨⟨item, afterItem⟩, hitem, h⟩ := ok_of_bind h
      dsimp only at h
      split at h
      · cases h
        exact Datum.areDocuments_cons (ihValue hitem) rfl
      · obtain ⟨⟨items, more⟩, hitems, h⟩ := ok_of_bind h
        cases h
        exact Datum.areDocuments_cons (ihValue hitem) (ihItems hitems)
      · cases h

theorem isDocument_of_parse {text : String} {d : Datum} (h : parse text = .ok d) :
    d.isDocument = true := by
  have h := ok_of_mapError h
  rw [readDocument] at h
  dsimp only at h
  split at h
  · cases h
  · obtain ⟨⟨value, left⟩, hvalue, h⟩ := ok_of_bind h
    dsimp only at h
    split at h
    · cases h
      exact (isDocument_of_read _).1 hvalue
    · cases h

end Json

/-! ## YAML -/

namespace Yaml

theorem Outcome.ok_of_both {α β γ : Type} {f : α → β → γ} {x : Outcome α} {y : Outcome β} {c : γ}
    (h : Outcome.both f x y = .ok c) : ∃ a b, x = .ok a ∧ y = .ok b ∧ f a b = c := by
  cases x with
  | ok a =>
    cases y with
    | ok b => exact ⟨a, b, rfl, rfl, Except.ok.inj h⟩
    | error e => cases h
  | error d =>
    cases y with
    | ok b => cases h
    | error e =>
      rw [Outcome.both] at h
      split at h <;> cases h

theorem isDocument_of_timestamp {text : String} {d : Datum} (h : timestampValue text = .ok d) :
    d.isDocument = true := by
  rw [timestampValue] at h
  split at h
  · cases h
  · have h := ok_of_mapError h
    split at h
    · obtain ⟨date, -, rfl⟩ := ok_of_exceptMap h
      rfl
    · obtain ⟨time, -, rfl⟩ := ok_of_exceptMap h
      rfl

theorem isDocument_of_scalar {tag text : String} {d : Datum} (h : scalarValue tag text = .ok d) :
    d.isDocument = true := by
  rw [scalarValue] at h
  split at h
  · cases h
    rfl
  split at h
  · cases h
    rfl
  split at h
  · split at h
    · cases h
      rfl
    · cases h
  split at h
  · obtain ⟨n, -, rfl⟩ := ok_of_exceptMap h
    rfl
  split at h
  · obtain ⟨x, -, rfl⟩ := ok_of_exceptMap h
    rfl
  split at h
  · exact isDocument_of_timestamp h
  split at h
  · split at h
    · split at h
      · cases h
        rfl
      · cases h
    · cases h
  · cases h

mutual
theorem isDocument_of_construct : ∀ {n : Node} {depth : Nat} {d : Datum},
    construct depth n = .ok d → d.isDocument = true
  | .scalar t s, depth, d, h => by
    rw [construct] at h
    split at h
    · exact isDocument_of_scalar (ok_of_mapError h)
    · split at h <;> cases h
  | .sequence t items, depth, d, h => by
    rw [construct] at h
    split at h
    · obtain ⟨xs, hxs, rfl⟩ := ok_of_exceptMap h
      exact areDocuments_of_constructAll hxs
    split at h
    · obtain ⟨xs, hxs, rfl⟩ := ok_of_exceptMap h
      exact areDocuments_of_constructPairs hxs
    split at h
    · cases h
    split at h <;> cases h
  | .mapping t entries, depth, d, h => by
    rw [construct] at h
    split at h
    · obtain ⟨es, hes, rfl⟩ := ok_of_exceptMap h
      exact Datum.isDocument_ofPairs (entriesAreDocuments_of_constructEntries hes)
    split at h
    · obtain ⟨es, hes, rfl⟩ := ok_of_exceptMap h
      refine Datum.isDocument_setOf (Datum.areDocuments_iff.mpr fun x hx => ?_)
      obtain ⟨e, he, rfl⟩ := List.mem_map.mp hx
      exact (Datum.entriesAreDocuments_iff.mp (entriesAreDocuments_of_constructEntries hes) e he).1
    split at h
    · cases h
    split at h
    · cases h
    split at h
    · split at h
      · exact isDocument_of_scalar (ok_of_mapError h)
      · cases h
    · cases h

theorem areDocuments_of_constructAll : ∀ {ns : List Node} {depth : Nat} {xs : List Datum},
    constructAll depth ns = .ok xs → Datum.areDocuments xs = true
  | [], _, _, h => by
    rw [constructAll] at h
    cases h
    rfl
  | n :: ns, depth, xs, h => by
    rw [constructAll] at h
    obtain ⟨x, rest, hx, hrest, rfl⟩ := Outcome.ok_of_both h
    exact Datum.areDocuments_cons (isDocument_of_construct hx) (areDocuments_of_constructAll hrest)

theorem areDocuments_of_constructPairs : ∀ {ns : List Node} {depth : Nat} {xs : List Datum},
    constructPairs depth ns = .ok xs → Datum.areDocuments xs = true
  | [], _, _, h => by
    rw [constructPairs] at h
    cases h
    rfl
  | .mapping t [(k, v)] :: ns, depth, xs, h => by
    rw [constructPairs] at h
    obtain ⟨x, rest, hx, hrest, rfl⟩ := Outcome.ok_of_both h
    obtain ⟨key, value, hkey, hvalue, rfl⟩ := Outcome.ok_of_both hx
    have hpair : Datum.areDocuments [key, value] = true :=
      Datum.areDocuments_cons (isDocument_of_construct hkey)
        (Datum.areDocuments_cons (isDocument_of_construct hvalue) rfl)
    exact Datum.areDocuments_cons hpair (areDocuments_of_constructPairs hrest)
  | .mapping _ [] :: _, _, _, h => by
    rw [constructPairs] at h
    · cases h
    · simp
  | .mapping _ (_ :: _ :: _) :: _, _, _, h => by
    rw [constructPairs] at h
    · cases h
    · simp
  | .scalar _ _ :: _, _, _, h => by
    rw [constructPairs] at h
    · cases h
    · simp
  | .sequence _ _ :: _, _, _, h => by
    rw [constructPairs] at h
    · cases h
    · simp

theorem entriesAreDocuments_of_constructEntries : ∀ {es : List (Node × Node)} {depth : Nat}
    {out : List (Datum × Datum)}, constructEntries depth es = .ok out →
      Datum.entriesAreDocuments out = true
  | [], _, _, h => by
    rw [constructEntries] at h
    cases h
    rfl
  | (k, v) :: rest, depth, out, h => by
    rw [constructEntries] at h
    obtain ⟨e, more, he, hmore, rfl⟩ := Outcome.ok_of_both h
    obtain ⟨key, value, hkey, hvalue, rfl⟩ := Outcome.ok_of_both he
    refine Datum.entriesAreDocuments_cons ?_ (isDocument_of_construct hvalue)
      (entriesAreDocuments_of_constructEntries hmore)
    split at hkey
    · rename_i made hmade
      split at hkey
      · cases hkey
        exact isDocument_of_construct hmade
      · cases hkey
    · split at hkey <;> cases hkey
end

theorem isDocument_of_parse {text : String} {d : Datum} (h : parse text = .ok d) :
    d.isDocument = true := by
  rw [parse] at h
  obtain ⟨node, -, h⟩ := ok_of_bind h
  cases node with
  | none =>
    cases h
    rfl
  | some node => exact isDocument_of_construct (ok_of_mapError h)

end Yaml

/-! ## Sources -/

namespace Spec

theorem decode_of_ofDatum {source : String} {d : Datum} {s : Spec} (h : ofDatum source d = .ok s) :
    Spec.decode d = .ok s := by
  unfold ofDatum at h
  split at h
  · cases h
  · split at h
    · rename_i hs
      cases h
      exact hs
    · split at h <;> cases h
  · cases h

theorem decode_of_ofJson {source text : String} {isTooDeep : Nesting} {s : Spec}
    (h : ofJson source text isTooDeep = .ok s) :
    ∃ d, d.isDocument = true ∧ Spec.decode d = .ok s := by
  rw [ofJson] at h
  split at h
  · cases h
  · split at h
    · rename_i d hd
      exact ⟨d, Json.isDocument_of_parse hd, decode_of_ofDatum h⟩
    · cases h
    · cases h

theorem decode_of_ofYaml {source text : String} {isTooDeep : Nesting} {s : Spec}
    (h : ofYaml source text isTooDeep = .ok s) :
    ∃ d, d.isDocument = true ∧ Spec.decode d = .ok s := by
  rw [ofYaml] at h
  split at h
  · cases h
  · split at h
    · rename_i d hd
      exact ⟨d, Yaml.isDocument_of_parse hd, decode_of_ofDatum h⟩
    · split at h <;> cases h

theorem decode_of_ofFile {disk : Storage.Disk} {path : Storage.Path} {isTooDeep : Nesting}
    {s : Spec} (h : ofFile disk path isTooDeep = .ok s) :
    ∃ d, d.isDocument = true ∧ Spec.decode d = .ok s := by
  rw [ofFile] at h
  split at h
  · dsimp only at h
    split at h
    · cases h
    · have h := ok_of_mapError h
      split at h
      · exact decode_of_ofJson h
      · exact decode_of_ofYaml h
  · cases h

/-- A specification that was read: from a text, from a file, or from a value of the kind that
texts and files hold. -/
inductive IsRead (s : Spec) : Prop
  | document {source : String} {d : Datum} (hd : d.isDocument = true) (h : ofDatum source d = .ok s)
  | json {source text : String} {isTooDeep : Nesting} (h : ofJson source text isTooDeep = .ok s)
  | yaml {source text : String} {isTooDeep : Nesting} (h : ofYaml source text isTooDeep = .ok s)
  | file {disk : Storage.Disk} {path : Storage.Path} {isTooDeep : Nesting}
    (h : ofFile disk path isTooDeep = .ok s)

/-- Reading leaves nothing of what `Spec.Accepted` asks for to whoever wrote the text. -/
theorem IsRead.accepted {s : Spec} (h : s.IsRead) : s.Accepted := by
  have hdecoded : ∃ d, d.isDocument = true ∧ Spec.decode d = .ok s := by
    cases h with
    | document hd h => exact ⟨_, hd, decode_of_ofDatum h⟩
    | json h => exact decode_of_ofJson h
    | yaml h => exact decode_of_ofYaml h
    | file h => exact decode_of_ofFile h
  obtain ⟨d, hd, hdecode⟩ := hdecoded
  exact accepted_of_decode hd hdecode

theorem accepted_of_ofFile {disk : Storage.Disk} {path : Storage.Path} {isTooDeep : Nesting}
    {s : Spec} (h : ofFile disk path isTooDeep = .ok s) : s.Accepted :=
  (IsRead.file h).accepted

/-- A specification that one of the readers has yielded, whatever it was given. -/
inductive IsLoaded (s : Spec) : Prop
  | datum {source : String} {d : Datum} (h : ofDatum source d = .ok s)
  | json {source text : String} {isTooDeep : Nesting} (h : ofJson source text isTooDeep = .ok s)
  | yaml {source text : String} {isTooDeep : Nesting} (h : ofYaml source text isTooDeep = .ok s)
  | file {disk : Storage.Disk} {path : Storage.Path} {isTooDeep : Nesting}
    (h : ofFile disk path isTooDeep = .ok s)

theorem IsLoaded.named {s : Spec} (h : s.IsLoaded) : s.Named := by
  cases h with
  | datum h => exact named_of_decode (decode_of_ofDatum h)
  | json h =>
    obtain ⟨d, -, hdecode⟩ := decode_of_ofJson h
    exact named_of_decode hdecode
  | yaml h =>
    obtain ⟨d, -, hdecode⟩ := decode_of_ofYaml h
    exact named_of_decode hdecode
  | file h =>
    obtain ⟨d, -, hdecode⟩ := decode_of_ofFile h
    exact named_of_decode hdecode

end Spec
end Groundplan
