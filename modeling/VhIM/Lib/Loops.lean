import Mathlib.Order.Basic

/-! # Loops over memory

Such a loop need not come to its end, so a program with loops is given a number
of turns. Only whether they suffice should matter: what it yields within some
turns it yields within more. -/
namespace VhIM.Lib

universe u v
variable {ε : Type u} {α β : Type v} {r r' : Except ε α}

/-- What `r` yields, `r'` yields. -/
def Yields (r r' : Except ε α) : Prop := ∀ a, r = .ok a → r' = .ok a

theorem Yields.refl (r : Except ε α) : Yields r r := fun _ h => h

theorem Yields.trans {r'' : Except ε α} (h : Yields r r') (h' : Yields r' r'') : Yields r r'' :=
  fun a ha => h' a (h a ha)

theorem Yields.error (e : ε) (r : Except ε α) : Yields (.error e) r := nofun

theorem Yields.bind {f g : α → Except ε β} (h : Yields r r') (hfg : ∀ a, Yields (f a) (g a)) :
    Yields (r >>= f) (r' >>= g) := by
  intro b hb
  cases r with
  | error e => cases hb
  | ok a =>
    rw [h a rfl]
    exact hfg a b hb

theorem Yields.map (h : Yields r r') (f : α → β) : Yields (r.map f) (r'.map f) := by
  intro b hb
  cases r with
  | error e => cases hb
  | ok a =>
    rw [h a rfl]
    exact hb

/-- More turns change nothing. -/
def Steady (f : Nat → Except ε α) : Prop := ∀ ⦃k l⦄, k ≤ l → Yields (f k) (f l)

/-- A loop that calls itself with a turn less. -/
theorem steady_loop {σ : Type*} {e : ε} {f : Nat → σ → Except ε α} (hzero : ∀ x, f 0 x = .error e)
    (hsucc : ∀ k, (∀ x, Yields (f k x) (f (k + 1) x)) →
      ∀ x, Yields (f (k + 1) x) (f (k + 2) x)) (x : σ) : Steady fun k => f k x := by
  have hstep : ∀ k x, Yields (f k x) (f (k + 1) x) := by
    intro k
    induction k with
    | zero => exact fun x => hzero x ▸ .error e _
    | succ k ih => exact hsucc k ih
  intro k l hle
  induction hle with
  | refl => exact .refl _
  | step _ ih => exact ih.trans (hstep _ x)

/-- Two runs that end yield the same. -/
theorem Steady.unique {f : Nat → Except ε α} (h : Steady f) {k l : Nat} {a b : α}
    (hk : f k = .ok a) (hl : f l = .ok b) : a = b := by
  rcases Nat.le_total k l with hle | hle
  · exact Except.ok.inj ((h hle a hk).symm.trans hl)
  · exact Except.ok.inj (hk.symm.trans (h hle b hl))

end VhIM.Lib
