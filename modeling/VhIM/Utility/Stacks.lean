import VhIM.Utility.Vstack

/-! # The two stacks of the source

`vstack.c` holds pointers, of which NULL is `none`, and `vistack.c` holds
`int`s. Otherwise they are the same text. -/
namespace VhIM.Utility
open VhIM.Lib

variable {α : Type}

/-! ## `vstack.c` -/

def vstackExec : StackOp (Option α) → Vstack α → StackResult (Option α) × Vstack α
  | .push fresh v, s => (.none, vstackPush s fresh v)
  | .pop, s => (.val (vstackPop s).1, (vstackPop s).2)
  | .getSize, s => (.size (vstackGetSize s), s)
  | .isEmpty, s => (.bool (vstackIsEmpty s), s)

/-! ## `vistack.c` -/

def vistackCreate : GrowingStack Int32 := .create 0

def vistackPush (s : GrowingStack Int32) (fresh : Nat → Int32) (v : Int32) :
    GrowingStack Int32 := s.push fresh v

def vistackPop (s : GrowingStack Int32) : Int32 × GrowingStack Int32 := s.pop (-1)

def vistackGetSize (s : GrowingStack Int32) : Nat := s.getSize

def vistackIsEmpty (s : GrowingStack Int32) : Bool := s.isEmpty

def vistackExec : StackOp Int32 → GrowingStack Int32 → StackResult Int32 × GrowingStack Int32
  | .push fresh v, s => (.none, vistackPush s fresh v)
  | .pop, s => (.val (vistackPop s).1, (vistackPop s).2)
  | .getSize, s => (.size (vistackGetSize s), s)
  | .isEmpty, s => (.bool (vistackIsEmpty s), s)

/-! ## Against a list -/

theorem vstackExec_eq : vstackExec (α := α) = GrowingStack.exec none := by
  funext op s
  cases op <;> rfl

theorem vistackExec_eq : vistackExec = GrowingStack.exec (-1) := by
  funext op s
  cases op <;> rfl

/-- After any calls the results have been those of a list, the slots hold what
the list holds, and another push would find a slot and keep all of them. -/
theorem stacks_refine_list :
    (∀ (α : Type) (ops : List (StackOp (Option α))),
      let run := execAll vstackExec ops vstackCreate
      let spec := execAll (GrowingStack.execList none) ops []
      run.1 = spec.1 ∧ GrowingStack.Holds run.2 spec.2 ∧
        ∀ fresh, GrowingStack.PushInside run.2 fresh) ∧
    ∀ ops : List (StackOp Int32),
      let run := execAll vistackExec ops vistackCreate
      let spec := execAll (GrowingStack.execList (-1)) ops []
      run.1 = spec.1 ∧ run.2.Holds spec.2 ∧ ∀ fresh, run.2.PushInside fresh := by
  constructor
  · intro α ops
    obtain ⟨hresults, hholds⟩ := execAll_simulates (GrowingStack.exec_simulates none) ops
      (GrowingStack.create_holds (none : Option α))
    rw [vstackExec_eq]
    exact ⟨hresults, hholds, fun fresh => (hholds.grow fresh).2⟩
  · intro ops
    obtain ⟨hresults, hholds⟩ := execAll_simulates (GrowingStack.exec_simulates (-1)) ops
      (GrowingStack.create_holds 0)
    rw [vistackExec_eq]
    exact ⟨hresults, hholds, fun fresh => (hholds.grow fresh).2⟩

end VhIM.Utility
