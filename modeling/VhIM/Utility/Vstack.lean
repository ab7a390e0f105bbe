import VhIM.Lib.GrowingStack

/-! # The stack of pointers

`vstack.c`: an array of slots that doubles when it is full, with NULL as
`none`. The program only pushes pointers to something, so a `Vstack` is used
through the list of values it stands for, bottom first. -/
namespace VhIM.Utility
open VhIM.Lib

abbrev Vstack (α : Type) := GrowingStack (Option α)

variable {α : Type}

def vstackCreate : Vstack α := GrowingStack.create none

def vstackPush (s : Vstack α) (fresh : Nat → Option α) (v : Option α) : Vstack α :=
  GrowingStack.push s fresh v

def vstackPop (s : Vstack α) : Option α × Vstack α := GrowingStack.pop none s

def vstackGetSize (s : Vstack α) : Nat := GrowingStack.getSize s

def vstackIsEmpty (s : Vstack α) : Bool := GrowingStack.isEmpty s

namespace Vstack

def create : Vstack α := vstackCreate

/-- A push of something; no call reads what a new slot holds. -/
def push (s : Vstack α) (v : α) : Vstack α := vstackPush s (fun _ => none) (some v)

def pop (s : Vstack α) : Option α × Vstack α := vstackPop s

def getSize (s : Vstack α) : Nat := vstackGetSize s

def isEmpty (s : Vstack α) : Bool := vstackIsEmpty s

/-- The values of `while (!vstack_is_empty(s)) vstack_pop(s)`, in that order. -/
def drainLoop : Nat → Vstack α → List α
  | 0, _ => []
  | n + 1, s =>
    if Vstack.isEmpty s then []
    else
      match Vstack.pop s with
      | (some v, s) => v :: drainLoop n s
      | (none, s) => drainLoop n s

def drain (s : Vstack α) : List α := drainLoop s.len s

def pushAll (s : Vstack α) (vs : List α) : Vstack α := vs.foldl push s

/-- The stack stands for `l`, whose last element is on top. -/
def Holds (s : Vstack α) (l : List α) : Prop := GrowingStack.Holds s (l.reverse.map some)

theorem Holds.len {s : Vstack α} {l : List α} (h : Vstack.Holds s l) : s.len = l.length := by
  rw [GrowingStack.Holds.len_eq h, List.length_map, List.length_reverse]

theorem Holds.getSize {s : Vstack α} {l : List α} (h : Vstack.Holds s l) :
    Vstack.getSize s = l.length := h.len

theorem create_holds : Vstack.Holds (create : Vstack α) [] := GrowingStack.create_holds none

theorem push_holds {s : Vstack α} {l : List α} (h : Vstack.Holds s l) (v : α) :
    Vstack.Holds (Vstack.push s v) (l ++ [v]) := by
  have hpush := GrowingStack.Holds.push h (fun _ => none) (some v)
  rw [Holds, List.reverse_append, List.reverse_singleton, List.singleton_append, List.map_cons]
  exact hpush

theorem pushAll_holds {s : Vstack α} {l : List α} (h : Vstack.Holds s l) (vs : List α) :
    Vstack.Holds (Vstack.pushAll s vs) (l ++ vs) := by
  induction vs generalizing s l with
  | nil => simpa [pushAll] using h
  | cons v vs ih => simpa [pushAll] using ih (push_holds h v)

theorem pop_holds {s : Vstack α} {l : List α} {v : α} (h : Vstack.Holds s (l ++ [v])) :
    (Vstack.pop s).1 = some v ∧ Vstack.Holds (Vstack.pop s).2 l := by
  rw [Holds, List.reverse_append, List.reverse_singleton, List.singleton_append,
    List.map_cons] at h
  exact GrowingStack.Holds.pop h none

theorem drainLoop_holds (l : List α) : ∀ {s : Vstack α}, Vstack.Holds s l →
    drainLoop l.length s = l.reverse := by
  induction l using List.reverseRecOn with
  | nil => intro s _; rfl
  | append_singleton l v ih =>
    intro s h
    obtain ⟨hv, hrest⟩ := pop_holds h
    have hlen : s.len = l.length + 1 := by simpa using h.len
    have hne : Vstack.isEmpty s = false := by
      simp [Vstack.isEmpty, vstackIsEmpty, GrowingStack.isEmpty, hlen]
    have hpop : Vstack.pop s = (some v, (Vstack.pop s).2) := by rw [← hv]
    rw [List.length_append, List.length_singleton, drainLoop, hne, hpop]
    simp [ih hrest]

/-- Popping until the stack is empty yields the list from the top down. -/
theorem drain_holds {s : Vstack α} {l : List α} (h : Vstack.Holds s l) :
    Vstack.drain s = l.reverse := by
  rw [drain, h.len, drainLoop_holds l h]

end Vstack
end VhIM.Utility
