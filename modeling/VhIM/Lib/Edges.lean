import VhIM.Lib.Runs

/-! # Edges of an observable

Runs that log what their steps put out. When each step reports exactly the
change of a Boolean observable, the reports of a run alternate. -/
namespace VhIM.Lib.Runs

variable {σ ι β : Type*}

/-- The steps, with the log of what they put out. -/
def logged (step : ι → σ → σ → Prop) (out : ι → σ → List β) (i : ι) (s t : σ × List β) : Prop :=
  step i s.1 t.1 ∧ t.2 = s.2 ++ out i s.1

/-- The report of a change from `a` to `b`: the new value, if it is one. -/
def edge (a b : Bool) : List Bool := if a = b then [] else [b]

def alternating (n : Nat) : List Bool := (List.range n).map fun k => k % 2 = 0

@[simp] theorem edge_self (a : Bool) : edge a a = [] := if_pos rfl

/-- One more report. -/
theorem alternating_edge (n : Nat) (b : Bool) : ∃ m,
    alternating n ++ edge (n % 2 = 1) b = alternating m ∧ b = decide (m % 2 = 1) := by
  have hsucc : alternating (n + 1) = alternating n ++ [decide (n % 2 = 0)] := by
    simp [alternating, List.range_succ]
  by_cases hb : decide (n % 2 = 1) = b
  · exact ⟨n, by rw [edge, if_pos hb, List.append_nil], hb.symm⟩
  · have hlast : decide (n % 2 = 0) = b := by
      rcases Nat.mod_two_eq_zero_or_one n with hn | hn <;> cases b <;> simp_all
    refine ⟨n + 1, by rw [hsucc, edge, if_neg hb, hlast], ?_⟩
    rw [← hlast, decide_eq_decide]
    omega

/-- The reports in the log are of rises and falls by turns, the first of a
rise, and the last one says what is observed now. -/
theorem Run.edges_alternate {step : ι → σ → σ → Prop} {out : ι → σ → List β} {I : σ → Prop}
    {f : β → Option Bool} {p : σ → Bool} {s t : σ × List β} {is : List ι}
    (hinv : ∀ i s t, I s → step i s t → I t)
    (hstep : ∀ i s t, I s → step i s t → (out i s).filterMap f = edge (p s) (p t))
    (h : Run (logged step out) s is t) (hs : I s.1)
    (hlog : ∃ n, s.2.filterMap f = alternating n ∧ p s.1 = decide (n % 2 = 1)) :
    ∃ n, t.2.filterMap f = alternating n ∧ p t.1 = decide (n % 2 = 1) := by
  have hboth : I t.1 ∧ ∃ n, t.2.filterMap f = alternating n ∧ p t.1 = decide (n % 2 = 1) := by
    refine h.invariant (I := fun s => I s.1 ∧ ∃ n, s.2.filterMap f = alternating n ∧
      p s.1 = decide (n % 2 = 1)) ?_ ⟨hs, hlog⟩
    rintro i ⟨s, l⟩ ⟨t, l'⟩ ⟨hI, n, hl, hp⟩ ⟨h1, hout⟩
    obtain ⟨m, hm, hpar⟩ := alternating_edge n (p t)
    refine ⟨hinv i s t hI h1, m, ?_, hpar⟩
    have hreport := hstep i s t hI h1
    dsimp only at hl hp hout
    rw [hout, List.filterMap_append, hl, hreport, hp, hm]
  exact hboth.2

/-- A view that every step changes as the step's part of the log says is the
whole log, replayed. -/
theorem Run.replays {step : ι → σ → σ → Prop} {out : ι → σ → List β} {I : σ → Prop} {τ : Type*}
    {view : σ → τ} {replay : τ → β → τ} {s t : σ × List β} {is : List ι}
    (hinv : ∀ i s t, I s → step i s t → I t)
    (hstep : ∀ i s t, I s → step i s t → view t = (out i s).foldl replay (view s))
    (h : Run (logged step out) s is t) (hs : I s.1) {a : τ}
    (hlog : view s.1 = s.2.foldl replay a) : view t.1 = t.2.foldl replay a := by
  induction h with
  | nil s => exact hlog
  | cons h1 _ ih =>
    obtain ⟨hs1, hout⟩ := h1
    refine ih (hinv _ _ _ hs hs1) ?_
    rw [hstep _ _ _ hs hs1, hout, List.foldl_append, hlog]

/-- The run without its log. -/
theorem Run.unlogged {step : ι → σ → σ → Prop} {out : ι → σ → List β} {s t : σ × List β}
    {is : List ι} (h : Run (logged step out) s is t) : Run step s.1 is t.1 := by
  induction h with
  | nil s => exact .nil s.1
  | cons h1 _ ih => exact .cons h1.1 ih

end VhIM.Lib.Runs
