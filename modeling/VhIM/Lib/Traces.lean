import VhIM.Lib.Edges

/-! # What is seen of a run

A fact that a step brings about only by its input has an origin in every run.
And a system is told apart from a simpler one by its log alone: what is seen of
its runs are runs of the simpler one, and each of those can be seen. -/
namespace VhIM.Lib.Runs

variable {σ τ ι κ β : Type*} {step : ι → σ → σ → Prop} {out : ι → σ → List β}
  {above : κ → τ → τ → Prop} {M : κ → β → Prop} {R : σ → τ → Prop}

/-- A fact held at the start, or an input of the run brought it about. -/
theorem Run.origin {s t : σ} {is : List ι} {F : σ → Prop} {P : ι → σ → Prop}
    (hstep : ∀ i s t, step i s t → F t → F s ∨ P i s) (h : Run step s is t) (ht : F t) :
    F s ∨ ∃ pre i post m, is = pre ++ i :: post ∧ Run step s pre m ∧ P i m := by
  induction h with
  | nil s => exact .inl ht
  | @cons i s m u is h1 _ ih =>
    rcases ih ht with hm | ⟨pre, j, post, n, rfl, hpre, hP⟩
    · rcases hstep i s m h1 hm with hs | hP
      · exact .inl hs
      · exact .inr ⟨[], i, is, s, rfl, .nil s, hP⟩
    · exact .inr ⟨i :: pre, j, post, n, rfl, .cons h1 hpre, hP⟩

/-! ## Runs with a log -/

/-- Nothing is seen of inputs that put nothing out. -/
theorem Run.quiet {s t : σ} {is : List ι} (hquiet : ∀ i ∈ is, ∀ s, out i s = [])
    (h : Run step s is t) (log : List β) : Run (logged step out) (s, log) is (t, log) := by
  induction h with
  | nil s => exact .nil _
  | @cons i s m u is h1 _ ih =>
    have hnone : out i s = [] := hquiet i List.mem_cons_self s
    refine .cons ⟨h1, ?_⟩ (ih fun j hj => hquiet j (List.mem_cons_of_mem _ hj))
    rw [hnone, List.append_nil]

/-- Who is alive has been so all along. -/
theorem Run.alive {s t : σ} {is : List ι} {L : σ → Prop}
    (hlive : ∀ i s t, step i s t → L t → L s) (h : Run step s is t) (ht : L t) : L s := by
  induction h with
  | nil s => exact ht
  | cons h1 _ ih => exact hlive _ _ _ h1 (ih ht)

/-- The log only grows. -/
theorem Run.log_grows {s t : σ × List β} {is : List ι} (h : Run (logged step out) s is t) :
    ∃ seen, t.2 = s.2 ++ seen := by
  induction h with
  | nil s => exact ⟨[], (List.append_nil _).symm⟩
  | @cons i s m u is h1 _ ih =>
    obtain ⟨seen, hseen⟩ := ih
    exact ⟨out i s.1 ++ seen, by rw [hseen, h1.2, List.append_assoc]⟩

/-- If what is seen of each step is done above, then so is what is seen of a
run that ends alive. -/
theorem Run.explained {s t : σ × List β} {is : List ι} {L : σ → Prop} {a : τ} {ks : List κ}
    {seen : List β} (hlive : ∀ i s t, step i s t → L t → L s)
    (hstep : ∀ i s t a ks, R s a → step i s t → L t → List.Forall₂ M ks (out i s) →
      ∃ b, Run above a ks b ∧ R t b)
    (h : Run (logged step out) s is t) (ht : L t.1) (ha : R s.1 a) (hseen : t.2 = s.2 ++ seen)
    (hks : List.Forall₂ M ks seen) : ∃ b, Run above a ks b ∧ R t.1 b := by
  induction h generalizing a ks seen with
  | nil s =>
    rw [List.self_eq_append_right] at hseen
    subst hseen
    cases hks
    exact ⟨a, .nil a, ha⟩
  | @cons i s m u is h1 hrest ih =>
    obtain ⟨h1, hlog⟩ := h1
    have hm : L m.1 := hrest.unlogged.alive hlive ht
    -- what is seen of the first step comes first
    obtain ⟨later, hlater⟩ := hrest.log_grows
    have hsplit : seen = out i s.1 ++ later := by
      rw [hlater, hlog, List.append_assoc] at hseen
      exact (List.append_cancel_left hseen).symm
    rw [hsplit] at hks
    have hfirst := List.forall₂_take_append ks _ later hks
    have hthen := List.forall₂_drop_append ks _ later hks
    obtain ⟨b, hab, hb⟩ := hstep i s.1 m.1 a _ ha h1 hm hfirst
    obtain ⟨c, hbc, hc⟩ := ih ht hb hlater hthen
    refine ⟨c, ?_, hc⟩
    have hboth := hab.append hbc
    rwa [List.take_append_drop] at hboth

/-- If each step above can be seen, then so can a run. -/
theorem Run.realized {s : σ} {a b : τ} {ks : List κ} {seen : List β}
    (hstep : ∀ k a b s x log, R s a → above k a b → M k x →
      ∃ is t, Run (logged step out) (s, log) is (t, log ++ [x]) ∧ R t b)
    (h : Run above a ks b) (hks : List.Forall₂ M ks seen) (hs : R s a) (log : List β) :
    ∃ is t, Run (logged step out) (s, log) is (t, log ++ seen) ∧ R t b := by
  induction h generalizing s seen log with
  | nil a =>
    cases hks
    exact ⟨[], s, by rw [List.append_nil]; exact .nil _, hs⟩
  | cons h1 _ ih =>
    cases hks with
    | @cons _ x _ seen hx hks =>
      obtain ⟨is, t, hrun, ht⟩ := hstep _ _ _ _ x log hs h1 hx
      obtain ⟨js, u, hrest, hu⟩ := ih hks ht (log ++ [x])
      refine ⟨is ++ js, u, hrun.append ?_, hu⟩
      rwa [List.append_assoc] at hrest

end VhIM.Lib.Runs
