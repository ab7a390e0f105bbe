import Mathlib

/-! # Sets ordered by a key

The elements in increasing key order, at most one for each key: what a
balanced search tree holds when an insert of an equal element is ignored. The
order is a field, so two elements with one key cannot be in a set. -/
namespace VhIM.Lib

structure OrderedSet (α : Type*) {κ : Type*} [LinearOrder κ] (key : α → κ) where
  elems : List α
  sorted : elems.Pairwise (fun a b => key a < key b)

namespace OrderedSet

variable {α κ : Type*} [LinearOrder κ] {key : α → κ}

instance : Membership α (OrderedSet α key) := ⟨fun s a => a ∈ s.elems⟩

instance decidableExistsMem (s : OrderedSet α key) (p : α → Prop) [DecidablePred p] :
    Decidable (∃ a ∈ s, p a) :=
  inferInstanceAs (Decidable (∃ a ∈ s.elems, p a))

def empty : OrderedSet α key := ⟨[], .nil⟩

@[simp] theorem not_mem_empty (a : α) : ¬ a ∈ (empty : OrderedSet α key) :=
  List.not_mem_nil

/-- In-order insertion that keeps the element already stored under the key. -/
def insertElem (key : α → κ) (x : α) : List α → List α
  | [] => [x]
  | y :: ys =>
    if key x < key y then x :: y :: ys
    else if key y < key x then y :: insertElem key x ys
    else y :: ys

theorem mem_insertElem_sub {x a : α} {l : List α} (h : a ∈ insertElem key x l) :
    a = x ∨ a ∈ l := by
  induction l with
  | nil => simpa [insertElem] using h
  | cons y ys ih =>
    simp only [insertElem] at h
    split at h
    · simpa using h
    · split at h
      · rcases List.mem_cons.mp h with rfl | h
        · simp
        · rcases ih h with rfl | h
          · simp
          · simp [h]
      · exact Or.inr h

theorem mem_insertElem_of_mem {x a : α} {l : List α} (h : a ∈ l) : a ∈ insertElem key x l := by
  induction l with
  | nil => simp at h
  | cons y ys ih =>
    simp only [insertElem]
    split
    · exact List.mem_cons_of_mem _ h
    · split
      · rcases List.mem_cons.mp h with rfl | h
        · simp
        · exact List.mem_cons_of_mem _ (ih h)
      · exact h

theorem mem_insertElem_self {x : α} {l : List α} (h : ∀ a ∈ l, key a ≠ key x) :
    x ∈ insertElem key x l := by
  induction l with
  | nil => simp [insertElem]
  | cons y ys ih =>
    simp only [insertElem]
    split
    · simp
    · next hlt =>
      have hne := h y (by simp)
      rw [if_pos (lt_of_le_of_ne (not_lt.mp hlt) hne)]
      exact List.mem_cons_of_mem _ (ih fun a ha => h a (by simp [ha]))

theorem sorted_insertElem (x : α) {l : List α} (h : l.Pairwise (fun a b => key a < key b)) :
    (insertElem key x l).Pairwise (fun a b => key a < key b) := by
  induction l with
  | nil => simp [insertElem]
  | cons y ys ih =>
    obtain ⟨hy, hys⟩ := List.pairwise_cons.mp h
    simp only [insertElem]
    split
    · next hlt =>
      refine List.pairwise_cons.mpr ⟨?_, h⟩
      intro a ha
      rcases List.mem_cons.mp ha with rfl | ha
      · exact hlt
      · exact hlt.trans (hy a ha)
    · split
      · next hlt =>
        refine List.pairwise_cons.mpr ⟨?_, ih hys⟩
        intro a ha
        rcases mem_insertElem_sub ha with rfl | ha
        · exact hlt
        · exact hy a ha
      · exact h

def insert (x : α) (s : OrderedSet α key) : OrderedSet α key :=
  ⟨insertElem key x s.elems, sorted_insertElem x s.sorted⟩

def search (k : κ) (s : OrderedSet α key) : Option α := s.elems.find? (fun a => key a = k)

def erase (k : κ) (s : OrderedSet α key) : OrderedSet α key :=
  ⟨s.elems.filter (fun a => key a ≠ k), s.sorted.filter _⟩

def modify (k : κ) (f : α → α) (hf : ∀ a, key (f a) = key a) (s : OrderedSet α key) :
    OrderedSet α key :=
  ⟨s.elems.map (fun a => if key a = k then f a else a), by
    refine List.pairwise_map.mpr (s.sorted.imp ?_)
    intro a b hab
    have hkey : ∀ c : α, key (if key c = k then f c else c) = key c := by
      intro c; split
      · exact hf c
      · rfl
    rw [hkey, hkey]; exact hab⟩

def keys (s : OrderedSet α key) : List κ := s.elems.map key

theorem nodup_keys (s : OrderedSet α key) : s.keys.Nodup :=
  List.pairwise_map.mpr (s.sorted.imp fun h => ne_of_lt h)

theorem nodup_elems (s : OrderedSet α key) : s.elems.Nodup := .of_map key s.nodup_keys

theorem eq_of_key_eq {s : OrderedSet α key} {a b : α} (ha : a ∈ s) (hb : b ∈ s)
    (h : key a = key b) : a = b :=
  List.inj_on_of_nodup_map s.nodup_keys ha hb h

theorem search_eq_some {s : OrderedSet α key} {k : κ} {a : α} :
    s.search k = some a ↔ a ∈ s ∧ key a = k := by
  constructor
  · intro h
    exact ⟨List.mem_of_find?_eq_some h, by simpa using List.find?_some h⟩
  · rintro ⟨ha, rfl⟩
    cases hf : s.search (key a) with
    | none =>
      have := List.find?_eq_none.mp hf a ha
      simp at this
    | some b =>
      have hb : b ∈ s := List.mem_of_find?_eq_some hf
      have hk : key b = key a := by simpa using List.find?_some hf
      rw [eq_of_key_eq hb ha hk]

theorem search_eq_none {s : OrderedSet α key} {k : κ} :
    s.search k = none ↔ ∀ a ∈ s, key a ≠ k := by
  simp only [search, List.find?_eq_none, decide_eq_true_eq]
  exact Iff.rfl

theorem mem_insert {s : OrderedSet α key} {x a : α} :
    a ∈ s.insert x ↔ a ∈ s ∨ (a = x ∧ ∀ b ∈ s, key b ≠ key x) := by
  constructor
  · intro h
    rcases mem_insertElem_sub h with rfl | h
    · by_cases hs : ∀ b ∈ s, key b ≠ key a
      · exact Or.inr ⟨rfl, hs⟩
      · push Not at hs
        obtain ⟨b, hb, hk⟩ := hs
        have : b ∈ s.insert a := mem_insertElem_of_mem hb
        exact Or.inl (eq_of_key_eq this h hk ▸ hb)
    · exact Or.inl h
  · intro h
    rcases h with h | ⟨rfl, h⟩
    · exact mem_insertElem_of_mem h
    · exact mem_insertElem_self h

theorem mem_erase {s : OrderedSet α key} {k : κ} {a : α} :
    a ∈ s.erase k ↔ a ∈ s ∧ key a ≠ k := by
  show a ∈ s.elems.filter _ ↔ _
  rw [List.mem_filter, decide_eq_true_eq]
  exact Iff.rfl

theorem mem_modify {s : OrderedSet α key} {k : κ} {f : α → α} {hf : ∀ a, key (f a) = key a}
    {a : α} : a ∈ s.modify k f hf ↔ ∃ b ∈ s, a = if key b = k then f b else b := by
  show a ∈ s.elems.map _ ↔ _
  rw [List.mem_map]
  exact exists_congr fun b => and_congr_right fun _ => eq_comm

/-- An update of an element of the set. -/
theorem mem_modify_self {s : OrderedSet α key} {f : α → α} {hf : ∀ a, key (f a) = key a} {x : α}
    (hx : x ∈ s) (a : α) :
    a ∈ s.modify (key x) f hf ↔ (a ∈ s ∧ key a ≠ key x) ∨ a = f x := by
  rw [mem_modify]
  constructor
  · rintro ⟨b, hb, rfl⟩
    split
    · next h => rw [eq_of_key_eq hb hx h]; exact .inr rfl
    · next h => exact .inl ⟨hb, h⟩
  · intro h
    rcases h with ⟨ha, h⟩ | rfl
    · exact ⟨a, ha, by rw [if_neg h]⟩
    · exact ⟨x, hx, by rw [if_pos rfl]⟩

end OrderedSet
end VhIM.Lib
