/-
Quoted literals denote the text that they were made from.

`decode` reads the body of a literal back, so two texts never share a literal, and a
literal has no line end in it.
-/
import Groundplan.Hcl.Literal
import Mathlib.Data.List.Basic

namespace Groundplan
namespace Hcl
namespace Literal

/-- The characters that `escapeChar` leaves as they are. -/
def IsRaw (c : Char) : Prop := c ≠ '\\' ∧ c ≠ '"' ∧ c ≠ '\n' ∧ c ≠ '\r' ∧ c ≠ '\t'

theorem escapeChar_of_isRaw {c : Char} (h : IsRaw c) : escapeChar c = [c] := by
  obtain ⟨h₁, h₂, h₃, h₄, h₅⟩ := h
  rw [escapeChar, if_neg h₁, if_neg h₂, if_neg h₃, if_neg h₄, if_neg h₅]

/-- Every other character becomes a backslash and a letter that stands for it. -/
theorem escapeChar_of_not_isRaw {c : Char} (h : ¬IsRaw c) :
    ∃ d, escapeChar c = ['\\', d] ∧ unescapeChar? d = some c := by
  by_cases h₁ : c = '\\'
  · exact ⟨'\\', by rw [h₁]; rfl, by rw [h₁]; rfl⟩
  by_cases h₂ : c = '"'
  · exact ⟨'"', by rw [h₂]; rfl, by rw [h₂]; rfl⟩
  by_cases h₃ : c = '\n'
  · exact ⟨'n', by rw [h₃]; rfl, by rw [h₃]; rfl⟩
  by_cases h₄ : c = '\r'
  · exact ⟨'r', by rw [h₄]; rfl, by rw [h₄]; rfl⟩
  by_cases h₅ : c = '\t'
  · exact ⟨'t', by rw [h₅]; rfl, by rw [h₅]; rfl⟩
  exact absurd ⟨h₁, h₂, h₃, h₄, h₅⟩ h

/-- An escaped text starts with an opening brace only if the text does: a brace behind a
dollar or percent sign is never left alone. -/
theorem escape_eq_brace_cons {s rest : List Char} (h : escape s = '\x7b' :: rest) :
    ∃ t, s = '\x7b' :: t := by
  fun_induction escape s with
  | case1 => cases h
  | case2 t _ => cases h
  | case3 t _ => cases h
  | case4 c t _ _ _ =>
    by_cases hraw : IsRaw c
    · rw [escapeChar_of_isRaw hraw] at h
      exact ⟨t, by rw [(List.cons.inj h).1]⟩
    · obtain ⟨d, hd, -⟩ := escapeChar_of_not_isRaw hraw
      rw [hd] at h
      cases h

theorem escape_ne_marker {c : Char} (hc : c = '$' ∨ c = '%') (s rest : List Char) :
    escape s ≠ c :: '\x7b' :: rest := by
  intro h
  fun_induction escape s with
  | case1 => cases h
  | case2 t _ => rcases hc with rfl | rfl <;> cases h
  | case3 t _ => rcases hc with rfl | rfl <;> cases h
  | case4 d t hdollar hpercent _ =>
    by_cases hraw : IsRaw d
    · rw [escapeChar_of_isRaw hraw] at h
      obtain ⟨hd, hrest⟩ := List.cons.inj h
      obtain ⟨u, rfl⟩ := escape_eq_brace_cons hrest
      rcases hc with rfl | rfl
      · exact hdollar u hd rfl
      · exact hpercent u hd rfl
    · obtain ⟨e, he, -⟩ := escapeChar_of_not_isRaw hraw
      rw [he] at h
      rcases hc with rfl | rfl <;> cases h

/-- A raw character in front of a body that does not turn it into a marker. -/
theorem decode_cons {c : Char} {body : List Char} (hraw : IsRaw c)
    (hopen : ∀ rest, c = '$' ∨ c = '%' → body ≠ '\x7b' :: rest)
    (hdouble : ∀ rest, c = '$' ∨ c = '%' → body ≠ c :: '\x7b' :: rest) :
    decode (c :: body) = (decode body).map (c :: ·) := by
  obtain ⟨h₁, h₂, h₃, h₄, h₅⟩ := hraw
  rw [decode.eq_def]
  split
  · contradiction
  · rename_i heq
    exact absurd (List.cons.inj heq).1 h₁
  · rename_i heq
    obtain ⟨hc, hbody⟩ := List.cons.inj heq
    exact absurd (hc ▸ hbody) (hdouble _ (.inl hc))
  · rename_i heq
    obtain ⟨hc, hbody⟩ := List.cons.inj heq
    exact absurd (hc ▸ hbody) (hdouble _ (.inr hc))
  · rename_i heq
    obtain ⟨hc, hbody⟩ := List.cons.inj heq
    exact absurd hbody (hopen _ (.inl hc))
  · rename_i heq
    obtain ⟨hc, hbody⟩ := List.cons.inj heq
    exact absurd hbody (hopen _ (.inr hc))
  · rename_i heq
    obtain ⟨hc, hbody⟩ := List.cons.inj heq
    subst hc hbody
    rw [if_neg]
    simp [h₁, h₂, h₃, h₄, h₅]

theorem decode_escape (s : List Char) : decode (escape s) = some s := by
  fun_induction escape s with
  | case1 => rfl
  | case2 rest ih => rw [decode, ih]; rfl
  | case3 rest ih => rw [decode, ih]; rfl
  | case4 c rest hdollar hpercent ih =>
    by_cases hraw : IsRaw c
    · rw [escapeChar_of_isRaw hraw, List.singleton_append, decode_cons hraw ?_ ?_, ih]
      · rfl
      · intro body hc hbody
        obtain ⟨t, rfl⟩ := escape_eq_brace_cons hbody
        rcases hc with rfl | rfl
        · exact hdollar t rfl rfl
        · exact hpercent t rfl rfl
      · exact fun body hc hbody => escape_ne_marker hc rest body hbody
    · obtain ⟨d, hd, hback⟩ := escapeChar_of_not_isRaw hraw
      rw [hd, List.cons_append, List.singleton_append, decode, hback, ih]
      rfl

theorem escape_injective : Function.Injective escape := by
  intro s t h
  have hdecode := congrArg decode h
  rw [decode_escape, decode_escape] at hdecode
  exact Option.some.inj hdecode

/-- A text of which every character stands for itself, whatever stands in front of it. -/
def IsVerbatim (s : List Char) : Prop := ∀ c ∈ s, IsRaw c ∧ c ≠ '\x7b'

instance (c : Char) : Decidable (IsRaw c) := inferInstanceAs (Decidable (_ ∧ _))

instance (s : List Char) : Decidable (IsVerbatim s) := List.decidableBAll _ s

theorem escape_of_isVerbatim {s : List Char} (h : IsVerbatim s) : escape s = s := by
  fun_induction escape s with
  | case1 => rfl
  | case2 rest _ => exact absurd rfl (h '\x7b' (by simp)).2
  | case3 rest _ => exact absurd rfl (h '\x7b' (by simp)).2
  | case4 c rest _ _ ih =>
    rw [escapeChar_of_isRaw (h c List.mem_cons_self).1,
      ih fun d hd => h d (List.mem_cons_of_mem c hd), List.singleton_append]

/-- Neither of the characters that end a line. -/
theorem break_not_mem_escapeChar {b : Char} (hb : b = '\n' ∨ b = '\r') (c : Char) :
    b ∉ escapeChar c := by
  by_cases hraw : IsRaw c
  · rw [escapeChar_of_isRaw hraw, List.mem_singleton]
    rcases hb with rfl | rfl
    · exact Ne.symm hraw.2.2.1
    · exact Ne.symm hraw.2.2.2.1
  · obtain ⟨d, hd, hback⟩ := escapeChar_of_not_isRaw hraw
    rw [hd]
    intro hmem
    rcases List.mem_cons.mp hmem with h | h
    · rcases hb with rfl | rfl <;> exact absurd h (by decide)
    · rw [← List.mem_singleton.mp h] at hback
      rcases hb with rfl | rfl <;> cases hback

theorem break_not_mem_escape {b : Char} (hb : b = '\n' ∨ b = '\r') (s : List Char) :
    b ∉ escape s := by
  fun_induction escape s with
  | case1 => exact List.not_mem_nil
  | case2 rest ih =>
    rcases hb with rfl | rfl <;> simp [ih]
  | case3 rest ih =>
    rcases hb with rfl | rfl <;> simp [ih]
  | case4 c rest _ _ ih =>
    rw [List.mem_append, not_or]
    exact ⟨break_not_mem_escapeChar hb c, ih⟩

theorem break_not_mem_escapeKeepingMarkers {b : Char} (hb : b = '\n' ∨ b = '\r') (s : List Char) :
    b ∉ escapeKeepingMarkers s := by
  intro h
  obtain ⟨c, -, hc⟩ := List.mem_flatMap.mp h
  exact break_not_mem_escapeChar hb c hc

end Literal

theorem toList_quote (s : String) :
    (quote s).toList = '"' :: (Literal.escape s.toList ++ ['"']) := by
  simp [quote]

theorem toList_quoteTemplate (s : String) :
    (quoteTemplate s).toList = '"' :: (Literal.escapeKeepingMarkers s.toList ++ ['"']) := by
  simp [quoteTemplate]

theorem quote_of_isVerbatim {s : String} (h : Literal.IsVerbatim s.toList) :
    quote s = "\"" ++ s ++ "\"" := by
  rw [quote, Literal.escape_of_isVerbatim h, String.ofList_toList]

theorem quote_injective : Function.Injective quote := by
  intro s t h
  have hlist := congrArg String.toList h
  rw [toList_quote, toList_quote] at hlist
  have hbody := List.append_cancel_right (List.cons.inj hlist).2
  exact String.toList_injective (Literal.escape_injective hbody)

theorem break_not_mem_quotes {b : Char} (hb : b = '\n' ∨ b = '\r') {body : List Char}
    (h : b ∉ body) : b ∉ '"' :: (body ++ ['"']) := by
  rcases hb with rfl | rfl <;> simp [h]

theorem break_not_mem_quote {b : Char} (hb : b = '\n' ∨ b = '\r') (s : String) :
    b ∉ (quote s).toList := by
  rw [toList_quote]
  exact break_not_mem_quotes hb (Literal.break_not_mem_escape hb _)

theorem break_not_mem_quoteTemplate {b : Char} (hb : b = '\n' ∨ b = '\r') (s : String) :
    b ∉ (quoteTemplate s).toList := by
  rw [toList_quoteTemplate]
  exact break_not_mem_quotes hb (Literal.break_not_mem_escapeKeepingMarkers hb _)

end Hcl
end Groundplan
