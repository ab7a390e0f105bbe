import VhIM.Lib.OrderedSet

/-! # Search trees over a comparator

A comparator gives a number whose sign says how two elements are ordered. The
shape of the tree is left open, so whatever a balanced tree does to it is
covered. A search does not compare elements: it takes the sign that a probe
gives for each element it meets. -/
namespace VhIM.Lib.SearchTree

variable {α κ : Type*}

def inorder : BinaryTree α → List α
  | .nil => []
  | .node a l r => inorder l ++ a :: inorder r

/-- Smaller elements on the left, larger ones on the right. -/
def Ordered (cmp : α → α → Int) : BinaryTree α → Prop
  | .nil => True
  | .node a l r => (∀ b ∈ inorder l, cmp b a < 0) ∧ (∀ b ∈ inorder r, 0 < cmp b a) ∧
      Ordered cmp l ∧ Ordered cmp r

/-- Stop at 0, and go left from an element that is too large. -/
def search (probe : α → Int) : BinaryTree α → Option α
  | .nil => none
  | .node a l r =>
    if probe a = 0 then some a
    else if 0 < probe a then search probe l
    else search probe r

def insert (cmp : α → α → Int) (x : α) : BinaryTree α → BinaryTree α
  | .nil => .node x .nil .nil
  | .node a l r =>
    if cmp x a < 0 then .node a (insert cmp x l) r
    else if 0 < cmp x a then .node a l (insert cmp x r)
    else .node a l r

variable {cmp : α → α → Int} {probe : α → Int} {t : BinaryTree α} {a x : α}

/-! ## Search -/

/-- What is found is in the tree, in whatever order that is. -/
theorem search_sound (h : search probe t = some a) : a ∈ inorder t ∧ probe a = 0 := by
  induction t with
  | nil => cases h
  | node b l r ihl ihr =>
    simp only [search] at h
    simp only [inorder, List.mem_append, List.mem_cons]
    split at h
    · next hzero => cases h; exact ⟨.inr (.inl rfl), hzero⟩
    · split at h
      · exact ⟨.inl (ihl h).1, (ihl h).2⟩
      · exact ⟨.inr (.inr (ihr h).1), (ihr h).2⟩

/-- An element is found if the probe points to it from everywhere else. -/
theorem search_complete (hordered : Ordered cmp t)
    (hprobe : ∀ b ∈ inorder t, (cmp a b < 0 → 0 < probe b) ∧ (0 < cmp a b → probe b < 0))
    (hmem : a ∈ inorder t) (hzero : probe a = 0) : search probe t = some a := by
  induction t with
  | nil => cases hmem
  | node b l r ihl ihr =>
    obtain ⟨hleft, hright, hl, hr⟩ := hordered
    simp only [inorder, List.mem_append, List.mem_cons] at hmem hprobe
    obtain ⟨hdown, hup⟩ := hprobe b (.inr (.inl rfl))
    simp only [search]
    rcases hmem with hmem | rfl | hmem
    · have hpos := hdown (hleft a hmem)
      rw [if_neg (by omega), if_pos hpos]
      exact ihl hl (fun c hc => hprobe c (.inl hc)) hmem
    · rw [if_pos hzero]
    · have hneg := hup (hright a hmem)
      rw [if_neg (by omega), if_neg (by omega)]
      exact ihr hr (fun c hc => hprobe c (.inr (.inr hc))) hmem

theorem search_eq_some (hordered : Ordered cmp t)
    (hprobe : ∀ b ∈ inorder t, probe a = 0 →
      (cmp a b < 0 → 0 < probe b) ∧ (0 < cmp a b → probe b < 0)) :
    search probe t = some a ↔ a ∈ inorder t ∧ probe a = 0 :=
  ⟨search_sound, fun ⟨hmem, hzero⟩ =>
    search_complete hordered (fun b hb => hprobe b hb hzero) hmem hzero⟩

/-! ## Against the order of a key -/

variable [LinearOrder κ] {key : α → κ}

/-- The comparator orders the elements by their keys. -/
def OrdersBy (cmp : α → α → Int) (key : α → κ) (s : Set α) : Prop :=
  ∀ a ∈ s, ∀ b ∈ s, (cmp a b < 0 ↔ key a < key b) ∧ (0 < cmp a b ↔ key b < key a)

theorem OrdersBy.mono {s s' : Set α} (h : OrdersBy cmp key s) (hsub : s' ⊆ s) :
    OrdersBy cmp key s' := fun a ha b hb => h a (hsub ha) b (hsub hb)

/-- A tree is ordered if its elements are, from left to right. -/
theorem ordered_iff_sorted (h : OrdersBy cmp key {a | a ∈ inorder t}) :
    Ordered cmp t ↔ (inorder t).Pairwise (fun a b => key a < key b) := by
  induction t with
  | nil => exact ⟨fun _ => .nil, fun _ => trivial⟩
  | node c l r ihl ihr =>
    have hmem : ∀ b, b ∈ inorder (.node c l r) ↔ b ∈ inorder l ∨ b = c ∨ b ∈ inorder r := by
      simp [inorder]
    have hc := (hmem c).mpr (.inr (.inl rfl))
    have hl := ihl (h.mono fun b hb => (hmem b).mpr (.inl hb))
    have hr := ihr (h.mono fun b hb => (hmem b).mpr (.inr (.inr hb)))
    simp only [Ordered, inorder, List.pairwise_append, List.pairwise_cons, hl, hr, List.mem_cons,
      forall_eq_or_imp]
    constructor
    · rintro ⟨hleft, hright, hsl, hsr⟩
      have hdown : ∀ b ∈ inorder l, key b < key c := fun b hb =>
        (h b ((hmem b).mpr (.inl hb)) c hc).1.mp (hleft b hb)
      have hup : ∀ b ∈ inorder r, key c < key b := fun b hb =>
        (h b ((hmem b).mpr (.inr (.inr hb))) c hc).2.mp (hright b hb)
      exact ⟨hsl, ⟨hup, hsr⟩, fun b hb => ⟨hdown b hb, fun d hd => (hdown b hb).trans (hup d hd)⟩⟩
    · rintro ⟨hsl, ⟨hup, hsr⟩, hcross⟩
      exact ⟨fun b hb => (h b ((hmem b).mpr (.inl hb)) c hc).1.mpr (hcross b hb).1,
        fun b hb => (h b ((hmem b).mpr (.inr (.inr hb))) c hc).2.mpr (hup b hb), hsl, hsr⟩

open OrderedSet (insertElem)

theorem insertElem_left {l r : List α} (hlt : key x < key a) :
    insertElem key x (l ++ a :: r) = insertElem key x l ++ a :: r := by
  induction l with
  | nil => simp only [List.nil_append, insertElem, if_pos hlt, List.singleton_append]
  | cons b l ih =>
    simp only [List.cons_append, insertElem, ih]
    split_ifs <;> rfl

theorem insertElem_right {l r : List α} (hl : ∀ b ∈ l, key b < key x) :
    insertElem key x (l ++ r) = l ++ insertElem key x r := by
  induction l with
  | nil => rfl
  | cons b l ih =>
    have hb := hl b (by simp)
    simp only [List.cons_append, insertElem, if_neg hb.not_gt, if_pos hb,
      ih fun c hc => hl c (by simp [hc])]

/-- An insert into the tree is one into the set of its elements. -/
theorem inorder_insert (h : OrdersBy cmp key {a | a = x ∨ a ∈ inorder t})
    (hsorted : (inorder t).Pairwise (fun a b => key a < key b)) :
    inorder (insert cmp x t) = insertElem key x (inorder t) := by
  induction t with
  | nil => rfl
  | node c l r ihl ihr =>
    have hmem : ∀ b, b ∈ inorder (.node c l r) ↔ b ∈ inorder l ∨ b = c ∨ b ∈ inorder r := by
      simp [inorder]
    have hsub : ∀ b, b ∈ inorder l ∨ b ∈ inorder r → b ∈ inorder (.node c l r) := fun b hb =>
      (hmem b).mpr (hb.elim .inl fun hb => .inr (.inr hb))
    obtain ⟨hdown, hup⟩ := h x (.inl rfl) c (.inr ((hmem c).mpr (.inr (.inl rfl))))
    obtain ⟨hsl, hsr, hcross⟩ := List.pairwise_append.mp hsorted
    have hl := ihl (h.mono fun b hb => hb.imp id fun hb => hsub b (.inl hb)) hsl
    have hr := ihr (h.mono fun b hb => hb.imp id fun hb => hsub b (.inr hb))
      (List.pairwise_cons.mp hsr).2
    simp only [insert]
    split
    · next hneg =>
      simp only [inorder, hl]
      exact (insertElem_left (hdown.mp hneg)).symm
    · next hneg =>
      have hle := not_lt.mp fun hlt => hneg (hdown.mpr hlt)
      have hbelow : ∀ b ∈ inorder l, key b < key x := fun b hb =>
        (hcross b hb c (by simp)).trans_le hle
      simp only [inorder, insertElem_right hbelow, insertElem, if_neg hle.not_gt]
      split
      · next hpos => simp only [inorder, hr, if_pos (hup.mp hpos)]
      · next hpos => rw [if_neg fun hlt => hpos (hup.mpr hlt), inorder]

end VhIM.Lib.SearchTree
