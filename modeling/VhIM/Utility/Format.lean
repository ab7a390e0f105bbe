import VhIM.Lib.Literals
import VhIM.Utility.StringsHelper

/-! # Formatted texts

`sprintf` for the directives the sources use. A format whose directives stand
alone between single quotes becomes a text whose literals are the arguments. -/
namespace VhIM.Utility
open VhIM.Lib.Literals

inductive Arg where
  /-- `%s`. -/
  | string (s : List UInt8)
  /-- `%d`. -/
  | int (i : Int32)
  /-- `%u`. -/
  | unsigned (n : UInt32)

def Arg.print : Arg → List UInt8
  | string s => s
  | int i => decimal i
  | unsigned n => text (toString n.toNat)

def percent : UInt8 := 37

/-- `sprintf`, over the characters of the format; every directive is a percent
sign and a letter and takes an argument. -/
def sprintf : List UInt8 → List Arg → List UInt8
  | c :: letter :: fmt, a :: args =>
    if c = percent then a.print ++ sprintf fmt args else c :: sprintf (letter :: fmt) (a :: args)
  | fmt, _ => fmt

/-- A directive, as the whole content of a literal. -/
def IsDirective (lit : List UInt8) : Prop := lit.length = 2 ∧ lit.head? = some percent

instance decidableIsDirective (lit : List UInt8) : Decidable (IsDirective lit) :=
  inferInstanceAs (Decidable (_ ∧ _))

/-- The tokens of a format with the arguments in place of the directives. -/
def fill : List (Token UInt8) → List Arg → List (Token UInt8)
  | .raw c :: toks, args => .raw c :: fill toks args
  | .literal lit :: toks, args =>
    if IsDirective lit then
      match args with
      | a :: args => .literal a.print :: fill toks args
      | [] => .literal lit :: fill toks []
    else .literal lit :: fill toks args
  | [], _ => []

/-- Percent signs stand only where a directive is a whole literal. -/
def PlainToken : Token UInt8 → Prop
  | .raw c => c ≠ percent
  | .literal lit => IsDirective lit ∨ percent ∉ lit

instance decidablePlainToken : DecidablePred PlainToken
  | .raw _ => inferInstanceAs (Decidable (_ ≠ _))
  | .literal _ => inferInstanceAs (Decidable (_ ∨ _))

def directives : List (Token UInt8) → Nat
  | .literal lit :: toks => if IsDirective lit then directives toks + 1 else directives toks
  | .raw _ :: toks => directives toks
  | [] => 0

/-! ## Formatting token by token -/

variable {fmt l lit : List UInt8} {c : UInt8} {a : Arg} {args : List Arg}
  {toks : List (Token UInt8)}

theorem sprintf_nil_args : sprintf fmt [] = fmt := by
  unfold sprintf
  split
  · next he => cases he
  · rfl

theorem sprintf_cons (hc : c ≠ percent) : sprintf (c :: fmt) args = c :: sprintf fmt args := by
  cases args with
  | nil => rw [sprintf_nil_args, sprintf_nil_args]
  | cons a args =>
    cases fmt with
    | nil => rfl
    | cons letter fmt => rw [sprintf, if_neg hc]

theorem sprintf_append (h : percent ∉ l) : sprintf (l ++ fmt) args = l ++ sprintf fmt args := by
  induction l with
  | nil => rfl
  | cons c l ih =>
    simp only [List.mem_cons, not_or] at h
    rw [List.cons_append, sprintf_cons (Ne.symm h.1), ih h.2, List.cons_append]

theorem sprintf_directive (h : IsDirective lit) :
    sprintf (lit ++ fmt) (a :: args) = a.print ++ sprintf fmt args := by
  obtain ⟨hlen, hhead⟩ := h
  match lit, hlen with
  | [c, letter], _ =>
    rw [List.head?_cons, Option.some.injEq] at hhead
    rw [List.cons_append, List.cons_append, List.nil_append, sprintf, if_pos hhead]

def singleQuote : UInt8 := 39

theorem sprintf_render (hplain : ∀ t ∈ toks, PlainToken t) (hargs : directives toks = args.length) :
    sprintf (render singleQuote toks) args = render singleQuote (fill toks args) := by
  have hquote : singleQuote ≠ percent := by decide
  induction toks generalizing args with
  | nil => rfl
  | cons t toks ih =>
    have hrest : ∀ t ∈ toks, PlainToken t := fun t ht => hplain t (.tail _ ht)
    cases t with
    | raw c =>
      have hc : c ≠ percent := hplain (.raw c) (.head _)
      rw [render_raw, sprintf_cons hc, ih hrest hargs, fill, render_raw]
    | literal lit =>
      rw [render_literal, sprintf_cons hquote]
      by_cases hdir : IsDirective lit
      · rw [directives, if_pos hdir] at hargs
        cases args with
        | nil => cases hargs
        | cons a args =>
          rw [sprintf_directive hdir, sprintf_cons hquote, ih hrest (by simpa using hargs)]
          simp only [fill, if_pos hdir, render_literal]
      · rw [directives, if_neg hdir] at hargs
        have hno : percent ∉ lit := (hplain (.literal lit) (.head _)).resolve_left hdir
        rw [sprintf_append hno, sprintf_cons hquote, ih hrest hargs]
        simp only [fill, if_neg hdir, render_literal]

/-- A formatted text is as long as its format without the directives and the
arguments together. -/
theorem size_fill (hargs : directives toks = args.length) :
    size (fill toks args) + 2 * args.length =
      size toks + (args.map fun a => a.print.length).sum := by
  induction toks generalizing args with
  | nil =>
    rw [List.length_eq_zero_iff.mp hargs.symm]
    rfl
  | cons t toks ih =>
    cases t with
    | raw c =>
      have := ih hargs
      simp only [fill, size_cons]
      omega
    | literal lit =>
      by_cases hdir : IsDirective lit
      · rw [directives, if_pos hdir] at hargs
        cases args with
        | nil => cases hargs
        | cons a args =>
          have := @ih args (by simpa using hargs)
          have hlen := hdir.1
          simp only [fill, if_pos hdir, size_cons, Token.size, List.length_cons, List.map_cons,
            List.sum_cons]
          omega
      · rw [directives, if_neg hdir] at hargs
        have := ih hargs
        simp only [fill, if_neg hdir, size_cons]
        omega

/-- A literal stays one, whatever it holds. -/
theorem fill_literal (lit : List UInt8) (toks : List (Token UInt8)) (args : List Arg) :
    ∃ lit' args', fill (.literal lit :: toks) args = .literal lit' :: fill toks args' := by
  simp only [fill]
  split
  · split <;> exact ⟨_, _, rfl⟩
  · exact ⟨_, _, rfl⟩

theorem spaced_fill : Spaced singleQuote (fill toks args) ↔ Spaced singleQuote toks := by
  induction toks generalizing args with
  | nil => rfl
  | cons t toks ih =>
    cases t with
    | raw c => exact and_congr_right fun _ => ih
    | literal lit =>
      obtain ⟨lit', args', he⟩ := fill_literal lit toks args
      rw [he]
      cases toks with
      | nil => rfl
      | cons t' toks =>
        cases t' with
        | raw c => exact @ih args'
        | literal lit'' =>
          obtain ⟨_, _, he'⟩ := fill_literal lit'' toks args'
          rw [he']
          rfl

/-- The literals of the format are clean; those of the text are if the
arguments are. -/
theorem allClean_fill {esc : UInt8} (hclean : AllClean singleQuote esc toks)
    (hargs : directives toks = args.length) :
    AllClean singleQuote esc (fill toks args) ↔ ∀ a ∈ args, Clean singleQuote esc a.print := by
  induction toks generalizing args with
  | nil =>
    rw [List.length_eq_zero_iff.mp hargs.symm]
    simp [fill, AllClean]
  | cons t toks ih =>
    cases t with
    | raw c =>
      rw [allClean_raw] at hclean
      rw [fill, allClean_raw]
      exact ih hclean hargs
    | literal lit =>
      rw [allClean_literal] at hclean
      by_cases hdir : IsDirective lit
      · rw [directives, if_pos hdir] at hargs
        cases args with
        | nil => cases hargs
        | cons a args =>
          simp only [fill, if_pos hdir, allClean_literal, List.forall_mem_cons]
          rw [ih hclean.2 (by simpa using hargs)]
      · rw [directives, if_neg hdir] at hargs
        simp only [fill, if_neg hdir, allClean_literal]
        rw [ih hclean.2 hargs]
        exact and_iff_right hclean.1

end VhIM.Utility
