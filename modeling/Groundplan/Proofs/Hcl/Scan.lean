/-
A scanner of the configuration language that knows only what lets text escape from its
place: strings, comments and brackets.

`Scan.run` reads a text from a state to the state behind it, or refuses it.  A text is
`Contained` if the scanner gets from code back to code with every bracket closed, and
`run_contained` is why the notion composes: inside any other text a contained one
changes nothing, whatever brackets are open around it.  Bodies of quoted literals are
read inside a string and leave the scanner there.
-/
import Groundplan.Proofs.Hcl.Literal
import Groundplan.Proofs.Text.Names

namespace Groundplan
namespace Hcl
namespace Scan

/-- What the next character is part of.  In `escaped` it follows a backslash. -/
inductive Mode
  | code
  | string
  | escaped
  | comment
  deriving DecidableEq

/-- `due` holds the closing brackets that are still to come, the next one first. -/
structure State where
  mode : Mode
  due : List Char
  deriving DecidableEq

def start : State := ⟨.code, []⟩

/-- The bracket that closes an opening one. -/
def closing? : Char → Option Char
  | '\x7b' => some '\x7d'
  | '[' => some ']'
  | '(' => some ')'
  | _ => none

def isClosing (c : Char) : Bool := c == '\x7d' || c == ']' || c == ')'

/-- A closing bracket must be the one that is due. -/
def close (c : Char) : List Char → Option State
  | [] => none
  | d :: due => if c = d then some ⟨.code, due⟩ else none

/-- Reads one character.  A raw line end inside a string and a closing bracket that is
not due are refused. -/
def step : State → Char → Option State
  | ⟨.code, due⟩, c =>
    if c = '"' then some ⟨.string, due⟩
    else if c = '#' then some ⟨.comment, due⟩
    else match closing? c with
      | some d => some ⟨.code, d :: due⟩
      | none => if isClosing c then close c due else some ⟨.code, due⟩
  | ⟨.string, due⟩, c =>
    if c = '\n' ∨ c = '\r' then none
    else if c = '"' then some ⟨.code, due⟩
    else if c = '\\' then some ⟨.escaped, due⟩
    else some ⟨.string, due⟩
  | ⟨.escaped, due⟩, c => if c = '\n' ∨ c = '\r' then none else some ⟨.string, due⟩
  | ⟨.comment, due⟩, c => if c = '\n' then some ⟨.code, due⟩ else some ⟨.comment, due⟩

/-- Reads a text from the left. -/
def run (s : State) : List Char → Option State
  | [] => some s
  | c :: rest => (step s c).bind fun t => run t rest

theorem run_nil (s : State) : run s [] = some s := rfl

theorem run_cons (s : State) (c : Char) (rest : List Char) :
    run s (c :: rest) = (step s c).bind fun t => run t rest := rfl

theorem run_append (s : State) (a b : List Char) :
    run s (a ++ b) = (run s a).bind fun t => run t b := by
  induction a generalizing s with
  | nil => rfl
  | cons c a ih =>
    rw [List.cons_append, run_cons, run_cons, Option.bind_assoc]
    exact congrArg _ (funext ih)

theorem run_append_of_run {s t : State} {a : List Char} (h : run s a = some t) (b : List Char) :
    run s (a ++ b) = run t b := by
  rw [run_append, h, Option.bind_some]

end Scan

/-- A text that the scanner takes from code back to code with nothing left open. -/
def Contained (cs : List Char) : Prop := Scan.run Scan.start cs = some Scan.start

instance (cs : List Char) : Decidable (Contained cs) :=
  inferInstanceAs (Decidable (_ = _))

namespace Scan

/-! ## Brackets around a text

What is open around a text has no influence on how it is read, as long as nothing in it
closes a bracket of the surroundings. -/

/-- The state in which the brackets of `outer` are open around everything else. -/
def State.within (s : State) (outer : List Char) : State := ⟨s.mode, s.due ++ outer⟩

theorem close_within {c : Char} {due : List Char} {t : State} (outer : List Char)
    (h : close c due = some t) : close c (due ++ outer) = some (t.within outer) := by
  cases due with
  | nil => exact absurd h (by simp [close])
  | cons d due =>
    rw [close] at h
    by_cases hc : c = d
    · rw [if_pos hc] at h
      rw [List.cons_append, close, if_pos hc, ← Option.some.inj h]
      rfl
    · rw [if_neg hc] at h
      exact absurd h (by simp)

theorem step_within {s t : State} {c : Char} (outer : List Char) (h : step s c = some t) :
    step (s.within outer) c = some (t.within outer) := by
  obtain ⟨mode, due⟩ := s
  simp only [State.within]
  cases mode with
  | code =>
    rw [step] at h ⊢
    by_cases hq : c = '"'
    · rw [if_pos hq] at h ⊢
      cases h
      rfl
    · rw [if_neg hq] at h ⊢
      by_cases hh : c = '#'
      · rw [if_pos hh] at h ⊢
        cases h
        rfl
      · rw [if_neg hh] at h ⊢
        cases hb : closing? c with
        | some d =>
          rw [hb] at h
          cases h
          rfl
        | none =>
          rw [hb] at h
          by_cases hk : isClosing c = true
          · simp only [hk, if_true] at h ⊢
            exact close_within outer h
          · simp only [hk, if_false, Bool.false_eq_true] at h ⊢
            cases h
            rfl
  | string =>
    rw [step] at h ⊢
    by_cases hn : c = '\n' ∨ c = '\r'
    · rw [if_pos hn] at h
      cases h
    · rw [if_neg hn] at h ⊢
      by_cases hq : c = '"'
      · rw [if_pos hq] at h ⊢
        cases h
        rfl
      · rw [if_neg hq] at h ⊢
        by_cases hb : c = '\\'
        · rw [if_pos hb] at h ⊢
          cases h
          rfl
        · rw [if_neg hb] at h ⊢
          cases h
          rfl
  | escaped =>
    rw [step] at h ⊢
    by_cases hn : c = '\n' ∨ c = '\r'
    · rw [if_pos hn] at h
      cases h
    · rw [if_neg hn] at h ⊢
      cases h
      rfl
  | comment =>
    rw [step] at h ⊢
    by_cases hn : c = '\n'
    · rw [if_pos hn] at h ⊢
      cases h
      rfl
    · rw [if_neg hn] at h ⊢
      cases h
      rfl

theorem run_within {s t : State} {cs : List Char} (outer : List Char) (h : run s cs = some t) :
    run (s.within outer) cs = some (t.within outer) := by
  induction cs generalizing s with
  | nil => rw [run_nil, Option.some.inj h]
  | cons c rest ih =>
    rw [run_cons] at h ⊢
    obtain ⟨u, hu, hrest⟩ := Option.bind_eq_some_iff.mp h
    rw [step_within outer hu, Option.bind_some]
    exact ih hrest

/-- A contained text leaves the scanner where it was. -/
theorem run_contained {cs : List Char} (h : Contained cs) (due : List Char) :
    run ⟨.code, due⟩ cs = some ⟨.code, due⟩ :=
  run_within due h

/-! ## Contained texts -/

theorem contained_nil : Contained [] := rfl

theorem contained_append {a b : List Char} (ha : Contained a) (hb : Contained b) :
    Contained (a ++ b) :=
  (run_append_of_run ha b).trans hb

/-- A bracket pair around a contained text. -/
theorem contained_brackets {c d : Char} {cs : List Char} (hc : closing? c = some d)
    (h : Contained cs) : Contained (c :: (cs ++ [d])) := by
  have hopen : step start c = some ⟨.code, [d]⟩ := by
    unfold closing? at hc
    split at hc <;> first | (cases Option.some.inj hc; rfl) | exact absurd hc (by simp)
  have hclose : run ⟨.code, [d]⟩ [d] = some start := by
    unfold closing? at hc
    split at hc <;> first | (cases Option.some.inj hc; rfl) | exact absurd hc (by simp)
  show run start (c :: (cs ++ [d])) = some start
  rw [run_cons, hopen, Option.bind_some, run_append_of_run (run_contained h [d])]
  exact hclose

/-- The characters that mean something in code. -/
def marks : List Char := ['"', '#', '\x7b', '[', '(', '\x7d', ']', ')']

def isPlain (c : Char) : Bool := !marks.contains c

theorem step_plain {c : Char} (h : isPlain c = true) (due : List Char) :
    step ⟨.code, due⟩ c = some ⟨.code, due⟩ := by
  simp only [isPlain, marks, Bool.not_eq_true', List.contains_eq_mem, decide_eq_false_iff_not,
    List.mem_cons, List.not_mem_nil, or_false, not_or] at h
  obtain ⟨hq, hh, h₁, h₂, h₃, h₄, h₅, h₆⟩ := h
  have hopen : closing? c = none := by
    unfold closing?
    split <;> first | contradiction | rfl
  have hclose : isClosing c = false := by simp [isClosing, h₄, h₅, h₆]
  rw [step, if_neg hq, if_neg hh, hopen]
  simp only [hclose, Bool.false_eq_true, if_false]

/-- A class of characters that no mark belongs to is plain. -/
theorem isPlain_of_class {p : Char → Bool} (h : (marks.all fun m => !p m) = true) (c : Char)
    (hc : p c = true) : isPlain c = true := by
  rw [isPlain, Bool.not_eq_true', List.contains_eq_mem, decide_eq_false_iff_not]
  intro hm
  have hmark := List.all_eq_true.mp h c hm
  rw [hc] at hmark
  exact absurd hmark (by decide)

theorem contained_of_plain {cs : List Char} (h : ∀ c ∈ cs, isPlain c = true) : Contained cs := by
  induction cs with
  | nil => exact contained_nil
  | cons c rest ih =>
    show run start (c :: rest) = some start
    rw [run_cons, start, step_plain (h c List.mem_cons_self), Option.bind_some]
    exact ih fun d hd => h d (List.mem_cons_of_mem c hd)

/-! ## Quoted literals -/

/-- An escaped character leaves the scanner inside the string. -/
theorem run_escapeChar (c : Char) (due : List Char) :
    run ⟨.string, due⟩ (Literal.escapeChar c) = some ⟨.string, due⟩ := by
  rw [Literal.escapeChar]
  by_cases h₁ : c = '\\'
  · rw [if_pos h₁]
    rfl
  rw [if_neg h₁]
  by_cases h₂ : c = '"'
  · rw [if_pos h₂]
    rfl
  rw [if_neg h₂]
  by_cases h₃ : c = '\n'
  · rw [if_pos h₃]
    rfl
  rw [if_neg h₃]
  by_cases h₄ : c = '\r'
  · rw [if_pos h₄]
    rfl
  rw [if_neg h₄]
  by_cases h₅ : c = '\t'
  · rw [if_pos h₅]
    rfl
  rw [if_neg h₅, run_cons, step, if_neg (by simp [h₃, h₄]), if_neg h₂, if_neg h₁]
  rfl

theorem run_escapeKeepingMarkers (s due : List Char) :
    run ⟨.string, due⟩ (Literal.escapeKeepingMarkers s) = some ⟨.string, due⟩ := by
  induction s with
  | nil => rfl
  | cons c s ih =>
    rw [Literal.escapeKeepingMarkers, List.flatMap_cons, run_append_of_run (run_escapeChar c due)]
    exact ih

theorem run_escape (s due : List Char) :
    run ⟨.string, due⟩ (Literal.escape s) = some ⟨.string, due⟩ := by
  fun_induction Literal.escape s with
  | case1 => rfl
  | case2 rest ih => exact ih
  | case3 rest ih => exact ih
  | case4 c rest _ _ ih => rw [run_append_of_run (run_escapeChar c due), ih]

/-- Quotes around a text that leaves the scanner inside the string. -/
theorem contained_quotes {cs : List Char}
    (h : run ⟨.string, []⟩ cs = some ⟨.string, []⟩) : Contained ('"' :: (cs ++ ['"'])) := by
  show (step start '"').bind (fun t => run t (cs ++ ['"'])) = some start
  rw [show step start '"' = some ⟨.string, []⟩ from rfl, Option.bind_some, run_append_of_run h]
  rfl

theorem contained_quote (s : String) : Contained (quote s).toList := by
  rw [toList_quote]
  exact contained_quotes (run_escape s.toList [])

theorem contained_quoteTemplate (s : String) : Contained (quoteTemplate s).toList := by
  rw [toList_quoteTemplate]
  exact contained_quotes (run_escapeKeepingMarkers s.toList [])

/-! ## Comments -/

theorem run_comment {cs : List Char} (h : '\n' ∉ cs) (due : List Char) :
    run ⟨.comment, due⟩ cs = some ⟨.comment, due⟩ := by
  induction cs with
  | nil => rfl
  | cons c rest ih =>
    rw [List.mem_cons, not_or] at h
    rw [run_cons, step, if_neg (Ne.symm h.1), Option.bind_some]
    exact ih h.2

/-- A hash sign and the text behind it up to the end of the line. -/
theorem contained_comment {cs : List Char} (h : '\n' ∉ cs) : Contained ('#' :: (cs ++ ['\n'])) := by
  show (step start '#').bind (fun t => run t (cs ++ ['\n'])) = some start
  rw [show step start '#' = some ⟨.comment, []⟩ from rfl, Option.bind_some,
    run_append_of_run (run_comment h [])]
  rfl

end Scan
end Hcl
end Groundplan
