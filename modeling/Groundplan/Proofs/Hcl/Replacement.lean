/-
Escaping as a chain of replacements.

A literal can also be escaped by replacing one pattern after the other in the whole text,
which is how the rule is usually put.  An early replacement could then make or hide what a
later one looks for.  It does not: the five that replace one character act on each
character by itself, and neither of the two markers can begin, or be cut off, inside what
they leave.  So the chain does what `escape` does in one pass, and `decode` undoes both.
-/
import Groundplan.Proofs.Hcl.Literal

namespace Groundplan
namespace Hcl
namespace Literal

/-- Replaces a pattern wherever it occurs.  Occurrences are found from the left and do not
overlap. -/
def replaceAll (pattern new : List Char) : List Char → List Char
  | [] => []
  | c :: rest =>
    if pattern.isPrefixOf (c :: rest) then
      new ++ replaceAll pattern new (rest.drop (pattern.length - 1))
    else c :: replaceAll pattern new rest
termination_by s => s.length
decreasing_by
  all_goals simp only [List.length_cons, List.length_drop]
  all_goals omega

/-- What is replaced in a text, in this order.  The backslash comes first, because the
others bring new ones. -/
def replacements : List (List Char × List Char) :=
  [(['\\'], ['\\', '\\']),
    (['"'], ['\\', '"']),
    (['\n'], ['\\', 'n']),
    (['\r'], ['\\', 'r']),
    (['\t'], ['\\', 't']),
    (['$', '\x7b'], ['$', '$', '\x7b']),
    (['%', '\x7b'], ['%', '%', '\x7b'])]

def replaceEach (rs : List (List Char × List Char)) (s : List Char) : List Char :=
  rs.foldl (fun s r => replaceAll r.1 r.2 s) s

/-! ## Single characters -/

theorem replaceAll_singleton (a : Char) (new s : List Char) :
    replaceAll [a] new s = s.flatMap fun c => if c = a then new else [c] := by
  induction s with
  | nil => simp [replaceAll]
  | cons c rest ih =>
    rw [replaceAll, List.flatMap_cons]
    by_cases h : c = a
    · simp [h, ih]
    · have hne : ¬ a = c := fun heq => h heq.symm
      simp [h, hne, ih]

/-- The first five replacements do to each character what `escapeChar` does. -/
theorem replaceEach_characters (s : List Char) :
    replaceEach (replacements.take 5) s = escapeKeepingMarkers s := by
  simp only [replacements, replaceEach, List.take_succ_cons, List.take_zero, List.foldl_cons,
    List.foldl_nil, replaceAll_singleton, List.flatMap_assoc, escapeKeepingMarkers]
  congr 1
  funext c
  unfold escapeChar
  by_cases h₁ : c = '\\'
  · simp [h₁]
  by_cases h₂ : c = '"'
  · simp [h₂]
  by_cases h₃ : c = '\n'
  · simp [h₃]
  by_cases h₄ : c = '\r'
  · simp [h₄]
  by_cases h₅ : c = '\t'
  · simp [h₅]
  simp [h₁, h₂, h₃, h₄, h₅]

/-! ## Markers -/

/-- Doubles the first character of every marker that begins with it. -/
def doubleMarkers (m : Char) : List Char → List Char :=
  replaceAll [m, '\x7b'] [m, m, '\x7b']

theorem doubleMarkers_nil (m : Char) : doubleMarkers m [] = [] := by
  rw [doubleMarkers, replaceAll]

theorem doubleMarkers_marker (m : Char) (rest : List Char) :
    doubleMarkers m (m :: '\x7b' :: rest) = m :: m :: '\x7b' :: doubleMarkers m rest := by
  rw [doubleMarkers, replaceAll]
  simp

theorem doubleMarkers_cons {m c : Char} {rest : List Char}
    (h : c = m → ∀ t, rest ≠ '\x7b' :: t) :
    doubleMarkers m (c :: rest) = c :: doubleMarkers m rest := by
  have hprefix : ¬ [m, '\x7b'].isPrefixOf (c :: rest) = true := by
    rw [List.isPrefixOf_iff_prefix]
    rintro ⟨t, ht⟩
    obtain ⟨hc, hrest⟩ := List.cons.inj ht
    exact h hc.symm t hrest.symm
  rw [doubleMarkers, replaceAll, if_neg hprefix]

theorem doubleMarkers_cons_of_ne {m c : Char} (h : c ≠ m) (rest : List Char) :
    doubleMarkers m (c :: rest) = c :: doubleMarkers m rest :=
  doubleMarkers_cons fun hc => absurd hc h

/-- Doubling puts no brace in front of a text. -/
theorem brace_of_doubleMarkers {m : Char} {s t : List Char} (hm : m ≠ '\x7b')
    (h : doubleMarkers m s = '\x7b' :: t) : ∃ u, s = '\x7b' :: u := by
  cases s with
  | nil => simp [doubleMarkers_nil] at h
  | cons c rest =>
    rw [doubleMarkers, replaceAll] at h
    split at h
    · exact absurd (List.cons.inj h).1 hm
    · exact ⟨rest, by rw [(List.cons.inj h).1]⟩

theorem escapeKeepingMarkers_cons (c : Char) (s : List Char) :
    escapeKeepingMarkers (c :: s) = escapeChar c ++ escapeKeepingMarkers s :=
  List.flatMap_cons

theorem brace_of_escapeKeepingMarkers {s t : List Char}
    (h : escapeKeepingMarkers s = '\x7b' :: t) : ∃ u, s = '\x7b' :: u := by
  cases s with
  | nil => simp [escapeKeepingMarkers] at h
  | cons c rest =>
    rw [escapeKeepingMarkers_cons] at h
    by_cases hraw : IsRaw c
    · rw [escapeChar_of_isRaw hraw] at h
      exact ⟨rest, by rw [(List.cons.inj h).1]⟩
    · obtain ⟨d, hd, -⟩ := escapeChar_of_not_isRaw hraw
      rw [hd] at h
      exact absurd (List.cons.inj h).1 (by decide)

/-- The character behind a backslash begins no marker. -/
theorem ne_marker_of_unescapeChar? {c d : Char} (h : unescapeChar? d = some c) :
    d ≠ '$' ∧ d ≠ '%' := by
  constructor
  · rintro rfl
    cases h
  · rintro rfl
    cases h

/-- Both doublings together read the text once from the left. -/
theorem doubleMarkers_escapeKeepingMarkers (s : List Char) :
    doubleMarkers '%' (doubleMarkers '$' (escapeKeepingMarkers s)) = escape s := by
  fun_induction escape s with
  | case1 => simp [escapeKeepingMarkers, doubleMarkers_nil]
  | case2 rest ih =>
    have hbody : escapeKeepingMarkers ('$' :: '\x7b' :: rest) =
        '$' :: '\x7b' :: escapeKeepingMarkers rest := rfl
    rw [hbody, doubleMarkers_marker, doubleMarkers_cons_of_ne (by decide),
      doubleMarkers_cons_of_ne (by decide), doubleMarkers_cons_of_ne (by decide), ih]
  | case3 rest ih =>
    have hbody : escapeKeepingMarkers ('%' :: '\x7b' :: rest) =
        '%' :: '\x7b' :: escapeKeepingMarkers rest := rfl
    rw [hbody, doubleMarkers_cons_of_ne (m := '$') (by decide),
      doubleMarkers_cons_of_ne (m := '$') (by decide), doubleMarkers_marker, ih]
  | case4 c rest hdollar hpercent ih =>
    rw [escapeKeepingMarkers_cons]
    by_cases hraw : IsRaw c
    · -- Behind such a character a brace would already stand in the text itself.
      have hfirst : c = '$' → ∀ t, escapeKeepingMarkers rest ≠ '\x7b' :: t := by
        intro hc t ht
        obtain ⟨u, hu⟩ := brace_of_escapeKeepingMarkers ht
        exact hdollar u hc hu
      have hsecond : c = '%' →
          ∀ t, doubleMarkers '$' (escapeKeepingMarkers rest) ≠ '\x7b' :: t := by
        intro hc t ht
        obtain ⟨u, hu⟩ := brace_of_doubleMarkers (by decide) ht
        obtain ⟨v, hv⟩ := brace_of_escapeKeepingMarkers hu
        exact hpercent v hc hv
      rw [escapeChar_of_isRaw hraw, List.singleton_append, doubleMarkers_cons hfirst,
        doubleMarkers_cons hsecond, ih, List.singleton_append]
    · obtain ⟨d, hd, hback⟩ := escapeChar_of_not_isRaw hraw
      obtain ⟨hnotDollar, hnotPercent⟩ := ne_marker_of_unescapeChar? hback
      rw [hd, List.cons_append, List.singleton_append,
        doubleMarkers_cons_of_ne (m := '$') (by decide), doubleMarkers_cons_of_ne hnotDollar,
        doubleMarkers_cons_of_ne (m := '%') (by decide), doubleMarkers_cons_of_ne hnotPercent, ih,
        List.cons_append, List.singleton_append]

theorem replaceEach_replacements (s : List Char) : replaceEach replacements s = escape s := by
  rw [← doubleMarkers_escapeKeepingMarkers, ← replaceEach_characters]
  rfl

/-- Reading an escaped text from the left gives the text back, so that it has no bare quote,
no raw line break and no interpolation that is left open; and escaping is the chain of
replacements. -/
theorem escape_reads_back (s : List Char) :
    decode (escape s) = some s ∧ escape s = replaceEach replacements s :=
  ⟨decode_escape s, (replaceEach_replacements s).symm⟩

/-- Markers that overlap, and one that hides behind a backslash. -/
example : escape "$$\x7b%%\x7b\\$\x7b".toList = "$$$\x7b%%%\x7b\\\\$$\x7b".toList := by
  decide

end Literal
end Hcl
end Groundplan
