import Mathlib

/-! # Fanning out

A list of pairs of a receiver and what is handed to it, and what one receiver
gets of it. Data that goes to every member of disjoint groups reaches each
member once. -/
namespace VhIM.Lib

variable {κ β ι : Type*} [DecidableEq κ]

/-- What `c` gets, in order. -/
def inbox (c : κ) (out : List (κ × β)) : List β := (out.filter fun x => x.1 = c).map Prod.snd

@[simp] theorem inbox_nil (c : κ) : inbox c ([] : List (κ × β)) = [] := rfl

@[simp] theorem inbox_append (c : κ) (out out' : List (κ × β)) :
    inbox c (out ++ out') = inbox c out ++ inbox c out' := by
  simp [inbox]

theorem mem_inbox {c : κ} {out : List (κ × β)} {b : β} : b ∈ inbox c out ↔ (c, b) ∈ out := by
  simp [inbox]

/-- A list of images is the image of a list. -/
theorem exists_map_eq {α β : Type*} {f : α → β} {P : α → Prop} {l : List β}
    (h : ∀ b ∈ l, ∃ a, P a ∧ b = f a) :
    ∃ as : List α, l = as.map f ∧ ∀ a ∈ as, P a := by
  induction l with
  | nil => exact ⟨[], rfl, fun _ ha => absurd ha List.not_mem_nil⟩
  | cons b l ih =>
    obtain ⟨as, rfl, has⟩ := ih fun b hb => h b (List.mem_cons_of_mem _ hb)
    obtain ⟨a, ha, rfl⟩ := h b List.mem_cons_self
    exact ⟨a :: as, rfl, List.forall_mem_cons.mpr ⟨ha, has⟩⟩

/-- The members of one group. -/
theorem inbox_group {c : κ} {l : List κ} (hl : l.Nodup) (data : β) :
    inbox c (l.map fun c => (c, data)) = if c ∈ l then [data] else [] := by
  induction l with
  | nil => rfl
  | cons a l ih =>
    obtain ⟨ha, hl⟩ := List.nodup_cons.mp hl
    have hrest := ih hl
    simp only [inbox, List.map_cons] at hrest ⊢
    by_cases hac : a = c
    · subst hac
      rw [List.filter_cons_of_pos (by simp), List.map_cons, hrest, if_neg ha, if_pos (by simp)]
    · have hmem : c ∈ a :: l ↔ c ∈ l := by simp [Ne.symm hac]
      rw [List.filter_cons_of_neg (by simpa using hac), hrest]
      simp only [hmem]

/-- Groups without a common member. -/
theorem inbox_fanOut {c : κ} {l : List ι} {group : ι → List κ} (hl : l.Nodup)
    (hnodup : ∀ i ∈ l, (group i).Nodup)
    (hapart : ∀ i ∈ l, ∀ j ∈ l, c ∈ group i → c ∈ group j → i = j) (data : β) :
    inbox c (l.flatMap fun i => (group i).map fun c => (c, data)) =
      if ∃ i ∈ l, c ∈ group i then [data] else [] := by
  induction l with
  | nil => simp
  | cons a l ih =>
    obtain ⟨ha, hl⟩ := List.nodup_cons.mp hl
    have hrest := ih hl (fun i hi => hnodup i (by simp [hi]))
      fun i hi j hj => hapart i (by simp [hi]) j (by simp [hj])
    rw [List.flatMap_cons, inbox_append, hrest, inbox_group (hnodup a (by simp))]
    by_cases hca : c ∈ group a
    · have hno : ¬ ∃ i ∈ l, c ∈ group i := by
        rintro ⟨i, hi, hci⟩
        exact ha (hapart a (by simp) i (by simp [hi]) hca hci ▸ hi)
      simp [hca, hno]
    · simp [hca]

end VhIM.Lib
