import Mathlib

/-! # Singly linked lists in memory

Cells at addresses, each with a value and the address of the next. An address
without a cell was never allocated or has been freed. A chain of cells lists
values; no cell is in it twice, and to unlink a cell takes its value out. -/
namespace VhIM.Lib.LinkedList

structure Cell (α β : Type*) where
  val : β
  next : Option α

abbrev Cells (α β : Type*) := α → Option (Cell α β)

/-- From an address on there are cells at these addresses, with these values,
and no more. -/
inductive Chain {α β : Type*} (cells : Cells α β) : Option α → List (α × β) → Prop
  | nil : Chain cells none []
  | cons {a : α} {b : β} {next : Option α} {l : List (α × β)} : cells a = some ⟨b, next⟩ →
      Chain cells next l → Chain cells (some a) ((a, b) :: l)

section
variable {α β : Type*} {cells cells' : Cells α β} {p : Option α} {a : α} {b : β}
  {l l' : List (α × β)}

/-- A chain is determined by where it begins. -/
theorem Chain.unique (h : Chain cells p l) (h' : Chain cells p l') : l = l' := by
  induction h generalizing l' with
  | nil =>
    cases h'
    rfl
  | cons hcell _ ih =>
    cases h' with
    | cons hcell' htail' =>
      cases hcell.symm.trans hcell'
      rw [ih htail']

/-- A chain goes on from every cell in it. -/
theorem Chain.from_mem (h : Chain cells p l) (ha : a ∈ l.map Prod.fst) :
    ∃ l', l' <:+ l ∧ Chain cells (some a) l' := by
  induction h with
  | nil => cases ha
  | @cons a' b' next l hcell htail ih =>
    rcases List.mem_cons.mp ha with rfl | ha
    · exact ⟨_, List.suffix_refl _, .cons hcell htail⟩
    · obtain ⟨l', hs, hchain⟩ := ih ha
      exact ⟨l', hs.trans (List.suffix_cons _ _), hchain⟩

theorem Chain.nodup (h : Chain cells p l) : (l.map Prod.fst).Nodup := by
  induction h with
  | nil => exact .nil
  | @cons a b next l hcell htail ih =>
    refine List.nodup_cons.mpr ⟨fun ha => ?_, ih⟩
    -- a second time round the chain would be as long as a part of it
    obtain ⟨l', hs, hchain⟩ := htail.from_mem ha
    have hlen := congrArg List.length (hchain.unique (.cons hcell htail))
    have hle := hs.length_le
    rw [List.length_cons] at hlen
    omega

/-- A chain stays clear of addresses without a cell. -/
theorem Chain.not_mem (h : Chain cells p l) (ha : cells a = none) : a ∉ l.map Prod.fst := by
  intro hmem
  obtain ⟨l', _, hchain⟩ := h.from_mem hmem
  cases hchain with
  | cons hcell _ => cases ha.symm.trans hcell

/-- There is a cell at every address of it. -/
theorem Chain.isSome (h : Chain cells p l) (ha : a ∈ l.map Prod.fst) : (cells a).isSome := by
  by_contra hno
  exact h.not_mem (Option.not_isSome_iff_eq_none.mp hno) ha

/-- Other cells do not matter. -/
theorem Chain.congr (h : Chain cells p l) (hsame : ∀ a ∈ l.map Prod.fst, cells' a = cells a) :
    Chain cells' p l := by
  induction h with
  | nil => exact .nil
  | cons hcell _ ih =>
    refine .cons ?_ (ih fun a ha => hsame a (.tail _ ha))
    rw [hsame _ (.head _), hcell]

/-- A cell of a chain. -/
theorem Chain.cell {l₁ l₂ : List (α × β)} (h : Chain cells p (l₁ ++ (a, b) :: l₂)) :
    ∃ next, cells a = some ⟨b, next⟩ ∧ Chain cells next l₂ := by
  induction l₁ generalizing p with
  | nil =>
    cases h with
    | cons hcell htail => exact ⟨_, hcell, htail⟩
  | cons x l₁ ih =>
    cases h with
    | cons _ htail => exact ih htail

end

section
variable {α β : Type*} [DecidableEq α] {cells : Cells α β} {p : Option α} {a : α} {b : β}
  {l l₁ l₂ : List (α × β)}

/-- Give an address a cell, or take it away. -/
def write (cells : Cells α β) (a : α) (c : Option (Cell α β)) : Cells α β :=
  Function.update cells a c

@[simp] theorem write_self (cells : Cells α β) (a : α) (c : Option (Cell α β)) :
    write cells a c a = c := Function.update_self ..

theorem write_of_ne {a' : α} (h : a' ≠ a) (cells : Cells α β) (c : Option (Cell α β)) :
    write cells a c a' = cells a' := Function.update_of_ne h ..

theorem Chain.write (h : Chain cells p l) (ha : a ∉ l.map Prod.fst) (c : Option (Cell α β)) :
    Chain (write cells a c) p l := by
  refine h.congr fun a' ha' => write_of_ne ?_ cells c
  rintro rfl
  exact ha ha'

/-- A new cell in front. -/
theorem Chain.push (h : Chain cells p l) (ha : a ∉ l.map Prod.fst) (b : β) :
    Chain (LinkedList.write cells a (some ⟨b, p⟩)) (some a) ((a, b) :: l) :=
  .cons (write_self ..) (h.write ha _)

/-- Without its first cell a chain begins at the next. -/
theorem Chain.unlink_head (h : Chain cells p ((a, b) :: l)) :
    ∃ next, cells a = some ⟨b, next⟩ ∧ Chain (LinkedList.write cells a none) next l := by
  have hnodup := h.nodup
  cases h with
  | cons hcell htail => exact ⟨_, hcell, htail.write (List.nodup_cons.mp hnodup).1 none⟩

/-- Any other cell is passed by the one before it. -/
theorem Chain.unlink_next {a₀ : α} {b₀ : β} (h : Chain cells p (l₁ ++ (a₀, b₀) :: (a, b) :: l₂)) :
    ∃ next, cells a = some ⟨b, next⟩ ∧
      Chain (LinkedList.write (LinkedList.write cells a₀ (some ⟨b₀, next⟩)) a none) p
        (l₁ ++ (a₀, b₀) :: l₂) := by
  induction l₁ generalizing p with
  | nil =>
    obtain ⟨hne, hnodup⟩ := List.nodup_cons.mp h.nodup
    cases h with
    | cons _ htail =>
      cases htail with
      | @cons _ _ next _ hcell htail =>
        have hne₀ : a₀ ≠ a := fun he => hne (he ▸ .head _)
        refine ⟨next, hcell, .cons ((write_of_ne hne₀ _ _).trans (write_self ..)) ?_⟩
        exact (htail.write (fun hm => hne (.tail _ hm)) _).write (List.nodup_cons.mp hnodup).1 none
  | cons x l₁ ih =>
    have hne := (List.nodup_cons.mp h.nodup).1
    cases h with
    | cons hx htail =>
      obtain ⟨next, hcell, hchain⟩ := ih htail
      refine ⟨next, hcell, .cons ?_ hchain⟩
      rw [write_of_ne, write_of_ne, hx]
      · rintro rfl
        exact hne (by simp)
      · rintro rfl
        exact hne (by simp)

end

end VhIM.Lib.LinkedList
