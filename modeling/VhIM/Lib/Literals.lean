import Mathlib

/-! # Quoted literals

Text with literals between quotes, lexed as a server of queries does: a quote
ends its literal unless it is doubled or escaped, and what stands for one
character of a literal may take two. A text made of tokens reads back as these
tokens exactly when no literal holds a quote or an escape. -/
namespace VhIM.Lib.Literals

variable {α : Type*}

inductive Token (α : Type*) where
  /-- A character outside the literals. -/
  | raw (c : α)
  /-- What a literal stands for. -/
  | literal (s : List α)
  deriving DecidableEq

def Token.render (quote : α) : Token α → List α
  | raw c => [c]
  | literal s => quote :: s ++ [quote]

def render (quote : α) (toks : List (Token α)) : List α := toks.flatMap (Token.render quote)

section
variable [DecidableEq α] (quote esc : α) (unescape : α → α)

/-- The tokens of a text; `mode` is the literal read so far, inside of one. A
text that ends in a literal has none. -/
def lex : Option (List α) → List α → Option (List (Token α))
  | none, [] => some []
  | none, c :: cs =>
    if c = quote then lex (some []) cs else (lex none cs).map (.raw c :: ·)
  | some _, [] => none
  | some lit, [c] => if c = quote then some [.literal lit] else none
  | some lit, c :: d :: cs =>
    if c = esc then lex (some (lit ++ [unescape d])) cs
    else if c = quote then
      if d = quote then lex (some (lit ++ [quote])) cs
      else (lex none (d :: cs)).map (.literal lit :: ·)
    else lex (some (lit ++ [c])) (d :: cs)

end

def Clean (quote esc : α) (s : List α) : Prop := quote ∉ s ∧ esc ∉ s

/-- No literal follows another one, and no quote stands alone. -/
def Spaced (quote : α) : List (Token α) → Prop
  | [] => True
  | .raw c :: toks => c ≠ quote ∧ Spaced quote toks
  | .literal _ :: .literal _ :: _ => False
  | .literal _ :: toks => Spaced quote toks

@[simp] theorem render_nil (quote : α) : render quote [] = [] := rfl

@[simp] theorem render_raw (quote c : α) (toks : List (Token α)) :
    render quote (.raw c :: toks) = c :: render quote toks := rfl

@[simp] theorem render_literal (quote : α) (lit : List α) (toks : List (Token α)) :
    render quote (.literal lit :: toks) = quote :: (lit ++ quote :: render quote toks) := by
  simp [render, Token.render]

instance decidableSpaced [DecidableEq α] (quote : α) (toks : List (Token α)) :
    Decidable (Spaced quote toks) :=
  match toks with
  | [] => .isTrue trivial
  | .raw _ :: toks =>
    haveI := decidableSpaced quote toks
    inferInstanceAs (Decidable (_ ∧ _))
  | .literal _ :: .literal _ :: _ => .isFalse id
  | [.literal _] => .isTrue trivial
  | .literal _ :: .raw c :: toks => decidableSpaced quote (.raw c :: toks)

def Token.size : Token α → Nat
  | raw _ => 1
  | literal s => s.length + 2

def size (toks : List (Token α)) : Nat := (toks.map Token.size).sum

/-- How many characters have been read of a literal. -/
def opened : Option (List α) → Nat
  | none => 0
  | some lit => lit.length + 1

theorem length_render (quote : α) (toks : List (Token α)) :
    (render quote toks).length = size toks := by
  simp only [render, size, List.length_flatMap]
  congr 1
  refine List.map_congr_left fun t _ => ?_
  cases t <;> simp [Token.render, Token.size]

@[simp] theorem size_cons (t : Token α) (toks : List (Token α)) :
    size (t :: toks) = t.size + size toks := rfl

theorem Clean.append {quote esc : α} {s : List α} {c : α} (hs : Clean quote esc s)
    (hq : c ≠ quote) (he : c ≠ esc) : Clean quote esc (s ++ [c]) := by
  constructor
  · intro h
    rcases List.mem_append.mp h with h | h
    · exact hs.1 h
    · exact hq (List.mem_singleton.mp h).symm
  · intro h
    rcases List.mem_append.mp h with h | h
    · exact hs.2 h
    · exact he (List.mem_singleton.mp h).symm

def AllClean (quote esc : α) (toks : List (Token α)) : Prop :=
  ∀ lit, .literal lit ∈ toks → Clean quote esc lit

theorem allClean_raw {quote esc c : α} {toks : List (Token α)} :
    AllClean quote esc (.raw c :: toks) ↔ AllClean quote esc toks := by
  simp [AllClean]

theorem allClean_literal {quote esc : α} {lit : List α} {toks : List (Token α)} :
    AllClean quote esc (.literal lit :: toks) ↔
      Clean quote esc lit ∧ AllClean quote esc toks := by
  simp [AllClean]

section
variable [DecidableEq α] {quote esc : α} {unescape : α → α} {mode : Option (List α)}
  {s : List α} {toks : List (Token α)}

/-- Tokens take no more than the text they were read from. If they take as
much, nothing in it was escaped or doubled. -/
theorem lex_size (h : lex quote esc unescape mode s = some toks) :
    size toks ≤ opened mode + s.length ∧
      (size toks = opened mode + s.length → (∀ lit, mode = some lit → Clean quote esc lit) →
        AllClean quote esc toks) := by
  induction mode, s using lex.induct quote esc unescape generalizing toks with
  | case1 =>
    rw [lex, Option.some.injEq] at h
    subst h
    simp [size, opened, AllClean]
  | case2 cs ih =>
    -- a literal opens
    rw [lex, if_pos rfl] at h
    obtain ⟨hle, hclean⟩ := ih h
    simp only [opened, List.length_nil, List.length_cons] at hle hclean ⊢
    refine ⟨by omega, fun he _ => hclean (by omega) ?_⟩
    rintro lit ⟨rfl⟩
    simp [Clean]
  | case3 c cs hc ih =>
    rw [lex, if_neg hc, Option.map_eq_some_iff] at h
    obtain ⟨toks, h, rfl⟩ := h
    obtain ⟨hle, hclean⟩ := ih h
    simp only [opened, size_cons, Token.size, List.length_cons] at hle hclean ⊢
    exact ⟨by omega, fun he _ => allClean_raw.mpr (hclean (by omega) (by simp))⟩
  | case4 lit => simp [lex] at h
  | case5 lit =>
    rw [lex, if_pos rfl, Option.some.injEq] at h
    subst h
    simp [size, Token.size, opened, AllClean]
  | case6 lit c hc => simp [lex, hc] at h
  | case7 lit d cs ih =>
    -- two characters for one
    rw [lex, if_pos rfl] at h
    have hle := (ih h).1
    simp only [opened, List.length_append, List.length_cons, List.length_nil] at hle ⊢
    exact ⟨by omega, fun he => by omega⟩
  | case8 lit cs hne ih =>
    rw [lex, if_neg hne, if_pos rfl, if_pos rfl] at h
    have hle := (ih h).1
    simp only [opened, List.length_append, List.length_cons, List.length_nil] at hle ⊢
    exact ⟨by omega, fun he => by omega⟩
  | case9 lit d cs hd hne ih =>
    -- the literal ends
    rw [lex, if_neg hne, if_pos rfl, if_neg hd, Option.map_eq_some_iff] at h
    obtain ⟨toks, h, rfl⟩ := h
    obtain ⟨hle, hclean⟩ := ih h
    simp only [opened, size_cons, Token.size, List.length_cons] at hle hclean ⊢
    exact ⟨by omega, fun he hlit => allClean_literal.mpr
      ⟨hlit lit rfl, hclean (by omega) (by simp)⟩⟩
  | case10 lit c d cs he hq ih =>
    rw [lex, if_neg he, if_neg hq] at h
    obtain ⟨hle, hclean⟩ := ih h
    simp only [opened, List.length_append, List.length_cons, List.length_nil] at hle hclean ⊢
    refine ⟨by omega, fun heq hlit => hclean (by omega) ?_⟩
    rintro lit' ⟨rfl⟩
    exact (hlit lit rfl).append hq he

/-- A clean run is read into the literal. -/
theorem lex_run {lit rest : List α} (hs : Clean quote esc s) (hrest : rest ≠ []) :
    lex quote esc unescape (some lit) (s ++ rest) =
      lex quote esc unescape (some (lit ++ s)) rest := by
  induction s generalizing lit with
  | nil => rw [List.append_nil, List.nil_append]
  | cons c s ih =>
    obtain ⟨hq, he⟩ := hs
    simp only [List.mem_cons, not_or] at hq he
    cases hcs : s ++ rest with
    | nil => exact absurd (List.append_eq_nil_iff.mp hcs).2 hrest
    | cons d cs =>
      rw [List.cons_append, hcs, lex, if_neg (Ne.symm he.1), if_neg (Ne.symm hq.1), ← hcs,
        ih ⟨hq.2, he.2⟩, List.append_assoc, List.singleton_append]

/-- Tokens with clean literals read back. -/
theorem lex_render (hquote : quote ≠ esc) (hspaced : Spaced quote toks)
    (hclean : AllClean quote esc toks) :
    lex quote esc unescape none (render quote toks) = some toks := by
  induction toks with
  | nil => rfl
  | cons t toks ih =>
    cases t with
    | raw c =>
      rw [allClean_raw] at hclean
      rw [render_raw, lex, if_neg hspaced.1, ih hspaced.2 hclean, Option.map_some]
    | literal lit =>
      rw [allClean_literal] at hclean
      rw [render_literal, lex, if_pos rfl, lex_run hclean.1 (by simp), List.nil_append]
      cases toks with
      | nil => rw [render_nil, lex, if_pos rfl]
      | cons t toks =>
        cases t with
        | literal lit' => exact hspaced.elim
        | raw c =>
          have hrest := ih hspaced hclean.2
          rw [render_raw] at hrest ⊢
          rw [lex, if_neg hquote, if_pos rfl, if_neg hspaced.1, hrest, Option.map_some]

/-- They read back only so. -/
theorem lex_render_iff (hquote : quote ≠ esc) (hspaced : Spaced quote toks) :
    lex quote esc unescape none (render quote toks) = some toks ↔ AllClean quote esc toks := by
  constructor
  · intro h
    have hsize := (lex_size h).2
    rw [length_render] at hsize
    exact hsize (by simp [opened]) (by simp)
  · exact lex_render hquote hspaced

end

end VhIM.Lib.Literals
