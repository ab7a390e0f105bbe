import Mathlib

/-! # Stacks in an array that doubles

The slots above the top hold whatever was there: what the memory held when it
was allocated, or a value that was popped. Against a list, top first, only the
results of the operations count. -/
namespace VhIM.Lib

structure GrowingStack (β : Type*) where
  vals : List β
  len : Nat
  maxLen : Nat

/-- A call on a stack; `fresh` is what new slots hold, should a push need them. -/
inductive StackOp (β : Type*) where
  | push (fresh : Nat → β) (v : β)
  | pop
  | getSize
  | isEmpty

inductive StackResult (β : Type*) where
  | none
  | val (v : β)
  | size (n : Nat)
  | bool (b : Bool)
  deriving DecidableEq

namespace GrowingStack

variable {β : Type*}

def create (zero : β) : GrowingStack β := ⟨List.replicate 8 zero, 0, 8⟩

/-- Twice the slots, if none is free. -/
def grow (fresh : Nat → β) (s : GrowingStack β) : GrowingStack β :=
  if s.len ≥ s.maxLen then
    { s with
      maxLen := s.maxLen * 2
      vals := s.vals ++
        (List.range' s.vals.length (s.maxLen * 2 - s.vals.length)).map fresh }
  else s

def push (s : GrowingStack β) (fresh : Nat → β) (v : β) : GrowingStack β :=
  let s := s.grow fresh
  { s with vals := s.vals.set s.len v, len := s.len + 1 }

/-- `empty` is what the pop of an empty stack returns. -/
def pop (empty : β) (s : GrowingStack β) : β × GrowingStack β :=
  if s.len > 0 then
    let s := { s with len := s.len - 1 }
    (s.vals.getD s.len empty, s)
  else (empty, s)

def getSize (s : GrowingStack β) : Nat := s.len

def isEmpty (s : GrowingStack β) : Bool := s.len ≤ 0

end GrowingStack

/-! ## Calls in a row -/

/-- The results of calls one after the other, and the state they leave. -/
def execAll {ι ρ σ : Type*} (exec : ι → σ → ρ × σ) : List ι → σ → List ρ × σ
  | [], s => ([], s)
  | i :: is, s =>
    let (r, s) := exec i s
    let (rs, s) := execAll exec is s
    (r :: rs, s)

/-- Two machines with the same results, as long as their states are related. -/
theorem execAll_simulates {ι ρ σ τ : Type*} {exec : ι → σ → ρ × σ} {exec' : ι → τ → ρ × τ}
    {R : σ → τ → Prop}
    (hstep : ∀ i s t, R s t → (exec i s).1 = (exec' i t).1 ∧ R (exec i s).2 (exec' i t).2)
    (is : List ι) {s : σ} {t : τ} (h : R s t) :
    (execAll exec is s).1 = (execAll exec' is t).1 ∧
      R (execAll exec is s).2 (execAll exec' is t).2 := by
  induction is generalizing s t with
  | nil => exact ⟨rfl, h⟩
  | cons i is ih =>
    obtain ⟨hresult, hrel⟩ := hstep i s t h
    obtain ⟨hresults, hend⟩ := ih hrel
    exact ⟨congrArg₂ List.cons hresult hresults, hend⟩

namespace GrowingStack

variable {β : Type*} {empty : β} {s : GrowingStack β} {l : List β}

def exec (empty : β) : StackOp β → GrowingStack β → StackResult β × GrowingStack β
  | .push fresh v, s => (.none, s.push fresh v)
  | .pop, s => (.val (s.pop empty).1, (s.pop empty).2)
  | .getSize, s => (.size s.getSize, s)
  | .isEmpty, s => (.bool s.isEmpty, s)

/-- The same calls on a list. -/
def execList (empty : β) : StackOp β → List β → StackResult β × List β
  | .push _ v, l => (.none, v :: l)
  | .pop, l => (.val (l.headD empty), l.tail)
  | .getSize, l => (.size l.length, l)
  | .isEmpty, l => (.bool l.isEmpty, l)

/-- The stack stands for `l`, whose first element is on top. -/
structure Holds (s : GrowingStack β) (l : List β) : Prop where
  slots : s.vals.length = s.maxLen
  doubled : ∃ k, s.maxLen = 8 * 2 ^ k
  le : s.len ≤ s.maxLen
  stored : s.vals.take s.len = l.reverse

/-- A push has a slot to write to, and keeps what is stored. -/
structure PushInside (s : GrowingStack β) (fresh : Nat → β) : Prop where
  slots : (s.grow fresh).vals.length = (s.grow fresh).maxLen
  room : (s.grow fresh).len < (s.grow fresh).maxLen
  kept : (s.grow fresh).vals.take s.len = s.vals.take s.len

theorem Holds.len_eq (h : s.Holds l) : s.len = l.length := by
  have hlen := congrArg List.length h.stored
  rwa [List.length_take, h.slots, min_eq_left h.le, List.length_reverse] at hlen

theorem create_holds (zero : β) : (create zero).Holds [] :=
  ⟨List.length_replicate, ⟨0, rfl⟩, Nat.zero_le _, rfl⟩

theorem Holds.grow (h : s.Holds l) (fresh : Nat → β) :
    (s.grow fresh).Holds l ∧ s.PushInside fresh := by
  have hslots := h.slots
  obtain ⟨k, hk⟩ := h.doubled
  have hpos : 0 < s.maxLen := by rw [hk]; positivity
  by_cases hfull : s.len ≥ s.maxLen
  · have hgrow : s.grow fresh = { s with
        maxLen := s.maxLen * 2
        vals := s.vals ++ (List.range' s.vals.length (s.maxLen * 2 - s.vals.length)).map fresh } :=
      if_pos hfull
    have hkept : (s.grow fresh).vals.take s.len = s.vals.take s.len := by
      rw [hgrow]
      exact List.take_append_of_le_length (hslots ▸ h.le)
    have hnew : (s.grow fresh).vals.length = (s.grow fresh).maxLen := by
      simp only [hgrow, List.length_append, List.length_map, List.length_range']
      omega
    have hlen : (s.grow fresh).len = s.len := by rw [hgrow]
    have hmax : (s.grow fresh).maxLen = s.maxLen * 2 := by rw [hgrow]
    have hle := h.le
    refine ⟨⟨hnew, ⟨k + 1, by rw [hmax, hk, pow_succ]; ring⟩, by omega, ?_⟩, hnew, by omega, hkept⟩
    rw [hlen, hkept, h.stored]
  · have hgrow : s.grow fresh = s := if_neg hfull
    rw [hgrow]
    exact ⟨h, by rw [hgrow]; exact hslots, by rw [hgrow]; omega, by rw [hgrow]⟩

theorem Holds.push (h : s.Holds l) (fresh : Nat → β) (v : β) :
    (s.push fresh v).Holds (v :: l) := by
  obtain ⟨hgrow, hinside⟩ := h.grow fresh
  refine ⟨by simpa [GrowingStack.push] using hgrow.slots, hgrow.doubled, hinside.room, ?_⟩
  have hlt : (s.grow fresh).len < (s.grow fresh).vals.length := hinside.slots ▸ hinside.room
  simp only [GrowingStack.push]
  rw [List.take_add_one, List.take_set_of_le le_rfl, hgrow.stored, List.reverse_cons]
  simp [hlt]

/-- What is on top, or `empty`. -/
theorem Holds.pop (h : s.Holds l) (empty : β) :
    (s.pop empty).1 = l.headD empty ∧ (s.pop empty).2.Holds l.tail := by
  have hlen := h.len_eq
  cases l with
  | nil =>
    have hpop : s.pop empty = (empty, s) := if_neg (by rw [hlen]; simp)
    rw [hpop]
    exact ⟨rfl, h⟩
  | cons v l =>
    rw [List.length_cons] at hlen
    have hpop : s.pop empty = (s.vals.getD (s.len - 1) empty, { s with len := s.len - 1 }) :=
      if_pos (by omega)
    have hstored := h.stored
    rw [hlen, List.reverse_cons] at hstored
    rw [hpop]
    refine ⟨?_, h.slots, h.doubled, (Nat.sub_le _ _).trans h.le, ?_⟩
    · have htop := congrArg (·[l.length]?) hstored
      rw [List.headD_cons, hlen, Nat.add_sub_cancel, List.getD_eq_getElem?_getD]
      simp only [List.getElem?_take, Nat.lt_succ_self, if_true] at htop
      rw [htop]
      simp
    · have hbelow := congrArg (List.take l.length) hstored
      rw [List.take_take, min_eq_left (Nat.le_succ _)] at hbelow
      show s.vals.take (s.len - 1) = _
      rw [hlen, Nat.add_sub_cancel, hbelow]
      simp

/-- The step: one call. -/
theorem exec_simulates (empty : β) (op : StackOp β) (s : GrowingStack β) (l : List β)
    (h : s.Holds l) :
    (exec empty op s).1 = (execList empty op l).1 ∧
      (exec empty op s).2.Holds (execList empty op l).2 := by
  cases op with
  | push fresh v => exact ⟨rfl, h.push fresh v⟩
  | pop =>
    obtain ⟨htop, hrest⟩ := h.pop empty
    exact ⟨congrArg StackResult.val htop, hrest⟩
  | getSize => exact ⟨congrArg StackResult.size h.len_eq, h⟩
  | isEmpty =>
    refine ⟨congrArg StackResult.bool ?_, h⟩
    rw [GrowingStack.isEmpty, h.len_eq]
    cases l <;> simp

end GrowingStack
end VhIM.Lib
