import Mathlib

/-! # Runs of a labelled step relation

A system is a relation `step i s t`: input `i` takes state `s` to `t`. A run
consumes a list of inputs. Invariants are proved once per step and carried to
every run; a run whose steps all meet a condition is a run of the guarded
relation. -/
namespace VhIM.Lib.Runs

variable {σ ι : Type*}

/-- Finite runs, with the inputs they consume in order. -/
inductive Run (step : ι → σ → σ → Prop) : σ → List ι → σ → Prop
  | nil (s : σ) : Run step s [] s
  | cons {i : ι} {s t u : σ} {is : List ι} :
      step i s t → Run step t is u → Run step s (i :: is) u

/-- The steps whose input meets `C` in the state it is consumed in. -/
def guarded (step : ι → σ → σ → Prop) (C : ι → σ → Prop) (i : ι) (s t : σ) : Prop :=
  step i s t ∧ C i s

variable {step : ι → σ → σ → Prop} {s t u : σ} {is js : List ι}

theorem Run.invariant {I : σ → Prop} (hstep : ∀ i s t, I s → step i s t → I t)
    (h : Run step s is t) (hs : I s) : I t := by
  induction h with
  | nil _ => exact hs
  | cons h1 _ ih => exact ih (hstep _ _ _ hs h1)

/-- What every step does, a run does, if it can be strung together. -/
theorem Run.relates {I : σ → Prop} {P : σ → σ → Prop} (hrefl : ∀ s, P s s)
    (htrans : ∀ s t u, P s t → P t u → P s u) (hinv : ∀ i s t, I s → step i s t → I t)
    (hstep : ∀ i s t, I s → step i s t → P s t) (h : Run step s is t) (hs : I s) : P s t := by
  induction h with
  | nil s => exact hrefl s
  | cons h1 _ ih => exact htrans _ _ _ (hstep _ _ _ hs h1) (ih (hinv _ _ _ hs h1))

/-- What a run has added to a log, one of its steps has added. -/
theorem Run.caused {β : Type*} {log : σ → List β} {P : ι → σ → β → Prop}
    (hstep : ∀ i s t, step i s t → ∃ out, log t = log s ++ out ∧ ∀ x ∈ out, P i s x)
    (h : Run step s is t) {x : β} (hx : x ∈ log t) :
    x ∈ log s ∨ ∃ pre i post m, is = pre ++ i :: post ∧ Run step s pre m ∧ P i m x := by
  induction h with
  | nil s => exact .inl hx
  | @cons i s m u is h1 _ ih =>
    rcases ih hx with hx | ⟨pre, j, post, n, rfl, hpre, hP⟩
    · obtain ⟨out, hlog, hout⟩ := hstep i s m h1
      rw [hlog] at hx
      rcases List.mem_append.mp hx with hx | hx
      · exact .inl hx
      · exact .inr ⟨[], i, is, s, rfl, .nil s, hout x hx⟩
    · exact .inr ⟨i :: pre, j, post, n, rfl, .cons h1 hpre, hP⟩

theorem Run.append (h : Run step s is t) (h' : Run step t js u) : Run step s (is ++ js) u := by
  induction h with
  | nil _ => exact h'
  | cons h1 _ ih => exact .cons h1 (ih h')

theorem Run.single {i : ι} (h : step i s t) : Run step s [i] t := .cons h (.nil t)

/-- A run whose inputs all meet `C` where they are consumed is guarded. -/
theorem Run.to_guarded {C : ι → σ → Prop} (h : Run step s is t)
    (hC : ∀ pre i post m, is = pre ++ i :: post → Run step s pre m → C i m) :
    Run (guarded step C) s is t := by
  induction h with
  | nil s => exact .nil s
  | @cons i s m u is h1 _ ih =>
    refine .cons ⟨h1, hC [] i is s rfl (.nil s)⟩ (ih ?_)
    intro pre j post n he hr
    exact hC (i :: pre) j post n (by rw [he]; rfl) (.cons h1 hr)

theorem Run.of_guarded {C : ι → σ → Prop} (h : Run (guarded step C) s is t) : Run step s is t := by
  induction h with
  | nil s => exact .nil s
  | cons h1 _ ih => exact .cons h1.1 ih

end VhIM.Lib.Runs
