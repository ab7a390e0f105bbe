import Mathlib

/-! # Programs that read a list front to back

A cursor is a state with a remaining input. `Consumes` says what a reading
program does on the bytes written for it; `Follows` says on which inputs a
reading program meets no reading error at all, in terms of a layout: a tree of
fields in which each field read decides what comes next. -/
namespace VhIM.Lib

/-- A state `σ` that reads a list of `β` front to back. -/
structure Cursor (σ β : Type) where
  rest : σ → List β
  advance : σ → Nat → σ
  rest_advance : ∀ s n, rest (advance s n) = (rest s).drop n
  advance_zero : ∀ s, advance s 0 = s
  advance_add : ∀ s m n, advance (advance s m) n = advance s (m + n)

variable {σ β ε α γ : Type} (c : Cursor σ β)

/-! ## Reading what was written -/

/-- `m` reads exactly `bs`, whatever follows, and returns `a`. -/
def Consumes (m : StateT σ (Except ε) α) (bs : List β) (a : α) : Prop :=
  ∀ s tail, c.rest s = bs ++ tail → m s = .ok (a, c.advance s bs.length)

variable {c}

theorem Consumes.pure (a : α) : Consumes (ε := ε) c (pure a) [] a := by
  intro s tail _
  rw [List.length_nil, c.advance_zero]
  rfl

theorem Consumes.bind {m : StateT σ (Except ε) α} {f : α → StateT σ (Except ε) γ}
    {bs bs' : List β} {a : α} {b : γ} (hm : Consumes c m bs a) (hf : Consumes c (f a) bs' b) :
    Consumes c (m >>= f) (bs ++ bs') b := by
  intro s tail hs
  rw [List.append_assoc] at hs
  have hnext : c.rest (c.advance s bs.length) = bs' ++ tail := by
    rw [c.rest_advance, hs, List.drop_left]
  show (m s >>= fun p => f p.1 p.2) = _
  rw [hm s _ hs]
  show f a (c.advance s bs.length) = _
  rw [hf _ tail hnext, c.advance_add, List.length_append]

theorem Consumes.bind_pure {m : StateT σ (Except ε) α} {f : α → γ} {bs : List β} {a : α}
    (hm : Consumes c m bs a) : Consumes c (m >>= fun x => Pure.pure (f x)) bs (f a) := by
  have := hm.bind (f := fun x => Pure.pure (f x)) (Consumes.pure (ε := ε) (f a))
  rwa [List.append_nil] at this

/-- A program goes on after what it has read, on the rest of the input. -/
theorem Consumes.andThen {m : StateT σ (Except ε) α} (f : α → StateT σ (Except ε) γ)
    {bs tail : List β} {a : α} {s : σ} (hm : Consumes c m bs a) (hs : c.rest s = bs ++ tail) :
    (m >>= f) s = f a (c.advance s bs.length) ∧ c.rest (c.advance s bs.length) = tail := by
  refine ⟨?_, by rw [c.rest_advance, hs, List.drop_left]⟩
  show (m s >>= fun p => f p.1 p.2) = _
  rw [hm s tail hs]
  rfl

/-! ## Layouts -/

/-- A tree of fields of kinds `φ`; the value of a field decides the rest. -/
inductive Layout (φ : Type) (val : φ → Type) where
  | done : Layout φ val
  | field (k : φ) (next : val k → Layout φ val) : Layout φ val

variable {φ : Type} {val : φ → Type} (at? : (k : φ) → List β → Option (val k × Nat))

/-- The input starts with the fields of the layout: `at? k` recognises a field
of kind `k` and gives its value and its length. -/
def Layout.Fits : Layout φ val → List β → Prop
  | .done, _ => True
  | .field k next, bs =>
    match at? k bs with
    | some (v, n) => (next v).Fits (bs.drop n)
    | none => False

/-- A run that ends in no error of the kind `bad`. -/
def Avoids (bad : ε → Prop) (r : Except ε α) : Prop := ∀ e, r = .error e → ¬ bad e

theorem avoids_ok (bad : ε → Prop) (a : α) : Avoids bad (.ok a) := by
  intro e h; cases h

theorem avoids_error {bad : ε → Prop} {e : ε} : Avoids (α := α) bad (.error e) ↔ ¬ bad e := by
  constructor
  · intro h; exact h e rfl
  · intro h e' he; cases he; exact h

variable (c) in
/-- `m` meets no `bad` error exactly on the inputs that fit `L`. -/
def Follows (bad : ε → Prop) (m : StateT σ (Except ε) α) (L : Layout φ val) : Prop :=
  ∀ s, Avoids bad (m s) ↔ L.Fits at? (c.rest s)

variable (c) in
/-- A reader of one field: it succeeds where `at?` recognises the field, and
fails with a `bad` error elsewhere. -/
def ReadsField (bad : ε → Prop) (k : φ) (m : StateT σ (Except ε) (val k)) : Prop :=
  ∀ s, match at? k (c.rest s) with
    | some (v, n) => m s = .ok (v, c.advance s n)
    | none => ∃ e, m s = .error e ∧ bad e

variable {at?} {bad : ε → Prop}

theorem Follows.done {m : StateT σ (Except ε) α} (h : ∀ s, Avoids bad (m s)) :
    Follows c at? bad m (.done : Layout φ val) :=
  fun s => ⟨fun _ => trivial, fun _ => h s⟩

theorem Follows.pure (a : α) : Follows (ε := ε) c at? bad (pure a) (.done : Layout φ val) :=
  .done fun _ => avoids_ok bad _

theorem Follows.field {k : φ} {m : StateT σ (Except ε) (val k)}
    {f : val k → StateT σ (Except ε) α} {next : val k → Layout φ val}
    (hm : ReadsField c at? bad k m) (hf : ∀ v, Follows c at? bad (f v) (next v)) :
    Follows c at? bad (m >>= f) (.field k next) := by
  intro s
  have hread := hm s
  show Avoids bad (m s >>= fun p => f p.1 p.2) ↔ _
  simp only [Layout.Fits]
  cases hat : at? k (c.rest s) with
  | none =>
    rw [hat] at hread
    obtain ⟨e, he, hbad⟩ := hread
    rw [he]
    exact ⟨fun h => h e rfl hbad, False.elim⟩
  | some p =>
    obtain ⟨v, n⟩ := p
    rw [hat] at hread
    simp only at hread ⊢
    rw [hread]
    show Avoids bad (f v (c.advance s n)) ↔ _
    rw [hf v, c.rest_advance]

end VhIM.Lib
