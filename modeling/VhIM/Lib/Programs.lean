import Mathlib

/-! # Programs that call an interface

A program is the tree of the calls it makes, each going on with the reply. It
runs against anything that answers, and it obeys a protocol when each of its
calls is allowed where it comes, whatever the replies are. -/
namespace VhIM.Lib

/-- It returns, goes no further, or makes a call and goes on with the reply. -/
inductive Program {κ : Type} (ρ : κ → Type) (α : Type) where
  | done (a : α)
  | stuck
  | call (c : κ) (next : ρ c → Program ρ α)

namespace Program

variable {κ : Type} {ρ : κ → Type} {α β σ τ : Type}

def bind (p : Program ρ α) (f : α → Program ρ β) : Program ρ β :=
  match p with
  | done a => f a
  | stuck => stuck
  | call c next => call c fun r => (next r).bind f

instance instMonad : Monad (Program ρ) where
  pure := done
  bind := bind

def perform (c : κ) : Program ρ (ρ c) := call c done

@[simp] theorem pure_eq (a : α) : (pure a : Program ρ α) = done a := rfl

@[simp] theorem done_bind (a : α) (f : α → Program ρ β) : done a >>= f = f a := rfl

@[simp] theorem perform_bind (c : κ) (f : ρ c → Program ρ β) : perform c >>= f = call c f := rfl

@[simp] theorem call_bind (c : κ) (next : ρ c → Program ρ α) (f : α → Program ρ β) :
    call c next >>= f = call c fun r => next r >>= f := rfl

abbrev Exchange (ρ : κ → Type) := (c : κ) × ρ c

/-! ## Runs -/

section
variable (answer : (c : κ) → σ → ρ c × σ)

/-- The value if it returns, the state of the other side, and what was
exchanged. -/
def run : Program ρ α → σ → Option α × σ × List (Exchange ρ)
  | done a, s => (some a, s, [])
  | stuck, s => (none, s, [])
  | call c next, s =>
    let (r, s) := answer c s
    let (a, s, exchanged) := (next r).run s
    (a, s, ⟨c, r⟩ :: exchanged)

@[simp] theorem run_done (a : α) (s : σ) :
    (done a : Program ρ α).run answer s = (some a, s, []) := rfl

@[simp] theorem run_call (c : κ) (next : ρ c → Program ρ α) (s : σ) :
    (call c next).run answer s =
      (((next (answer c s).1).run answer (answer c s).2).1,
        ((next (answer c s).1).run answer (answer c s).2).2.1,
        ⟨c, (answer c s).1⟩ :: ((next (answer c s).1).run answer (answer c s).2).2.2) := rfl

variable {answer}

/-- One program after the other. -/
theorem run_bind {p : Program ρ α} {f : α → Program ρ β} {s s' : σ} {a : α}
    {exchanged : List (Exchange ρ)} (h : p.run answer s = (some a, s', exchanged)) :
    (p >>= f).run answer s =
      (((f a).run answer s').1, ((f a).run answer s').2.1,
        exchanged ++ ((f a).run answer s').2.2) := by
  induction p generalizing s exchanged with
  | done b => cases h; rfl
  | stuck => cases h
  | call c next ih =>
    rw [run_call, Prod.mk.injEq, Prod.mk.injEq] at h
    obtain ⟨hvalue, rfl, rfl⟩ := h
    rw [call_bind, run_call, ih _ (Prod.ext hvalue rfl)]
    rfl

end

/-! ## Protocols -/

/-- The state of the protocol after an exchange, if it was allowed. -/
abbrev Protocol (ρ : κ → Type) (τ : Type) := (c : κ) → ρ c → τ → Option τ

variable {δ : Protocol ρ τ} {P Q : α → τ → Prop} {R : β → τ → Prop} {p : Program ρ α} {q : τ}

/-- Where the protocol is after what was exchanged. -/
def Protocol.after (δ : Protocol ρ τ) (q : τ) (exchanged : List (Exchange ρ)) : Option τ :=
  exchanged.foldlM (fun q x => δ x.1 x.2 q) q

/-- Whatever the replies, every call is allowed, and `P` holds if it returns. -/
def Obeys (δ : Protocol ρ τ) (P : α → τ → Prop) : Program ρ α → τ → Prop
  | done a, q => P a q
  | stuck, _ => True
  | call c next, q => ∀ r, ∃ q', δ c r q = some q' ∧ (next r).Obeys δ P q'

@[simp] theorem obeys_done {a : α} : (done a : Program ρ α).Obeys δ P q ↔ P a q := Iff.rfl

@[simp] theorem obeys_call {c : κ} {next : ρ c → Program ρ α} : (call c next).Obeys δ P q ↔
    ∀ r, ∃ q', δ c r q = some q' ∧ (next r).Obeys δ P q' := Iff.rfl

theorem Obeys.mono (h : p.Obeys δ P q) (hPQ : ∀ a q, P a q → Q a q) : p.Obeys δ Q q := by
  induction p generalizing q with
  | done a => exact hPQ a q h
  | stuck => exact trivial
  | call c next ih =>
    intro r
    obtain ⟨q', hq', hnext⟩ := h r
    exact ⟨q', hq', ih r hnext⟩

/-- One after the other, through what holds between them. -/
theorem Obeys.bind {f : α → Program ρ β} (h : p.Obeys δ P q)
    (hf : ∀ a q, P a q → (f a).Obeys δ R q) : (p >>= f).Obeys δ R q := by
  induction p generalizing q with
  | done a => exact hf a q h
  | stuck => exact trivial
  | call c next ih =>
    intro r
    obtain ⟨q', hq', hnext⟩ := h r
    exact ⟨q', hq', ih r hnext⟩

/-- A program that obeys the protocol keeps to it in every run. -/
theorem Obeys.run (h : p.Obeys δ P q) (answer : (c : κ) → σ → ρ c × σ) (s : σ) :
    ∃ q', δ.after q (p.run answer s).2.2 = some q' ∧
      ∀ a, (p.run answer s).1 = some a → P a q' := by
  induction p generalizing q s with
  | done a => exact ⟨q, rfl, fun b hb => by cases hb; exact h⟩
  | stuck => exact ⟨q, rfl, fun b hb => by cases hb⟩
  | call c next ih =>
    obtain ⟨q₁, hq₁, hnext⟩ := h (answer c s).1
    obtain ⟨q', hafter, hP⟩ := ih _ hnext (answer c s).2
    refine ⟨q', ?_, hP⟩
    rw [run_call, Protocol.after, List.foldlM_cons, hq₁]
    exact hafter

end Program
end VhIM.Lib
