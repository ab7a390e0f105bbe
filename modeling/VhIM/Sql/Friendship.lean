import VhIM.Sql.SqlCh

/-! # Friendships

What two users are to each other, as a machine of four states, and the rows
of `friends` and `friend_requests` that stand for each state. The queries that
decide look at one direction of a pair at a time; that they keep to the
machine needs all four counts at once. -/
namespace VhIM.Sql

inductive FriendOp where
  | add (uidFrom uidTo : Int32)
  | remove (uidFrom uidTo : Int32)

/-- The operation is one of `a` and `b`, by either of them. -/
def FriendOp.IsBetween (a b : Int32) : FriendOp → Prop
  | .add f t | .remove f t => (f = a ∧ t = b) ∨ (f = b ∧ t = a)

/-- What `a` and `b` are to each other: `requested` is a request of `a`,
`requestedBack` one of `b`. -/
inductive PairState where
  | none
  | requested
  | requestedBack
  | friends
  deriving DecidableEq

namespace PairState

def swap : PairState → PairState
  | none => none
  | requested => requestedBack
  | requestedBack => requested
  | friends => friends

/-- `a` asks `b`; if `b` has asked before, they are friends. -/
def asked : PairState → PairState
  | none => requested
  | requested => requested
  | requestedBack => friends
  | friends => friends

def step (a b : Int32) (st : PairState) : FriendOp → PairState
  | .add f t => if f = a ∧ t = b then st.asked else if f = b ∧ t = a then st.swap.asked.swap else st
  | .remove f t => if (f = a ∧ t = b) ∨ (f = b ∧ t = a) then none else st

end PairState

/-- How often each row that mentions both of two users is there. -/
structure PairRows where
  friendsAB : Nat
  friendsBA : Nat
  requestAB : Nat
  requestBA : Nat
  deriving DecidableEq

def pairRows (db : Database) (a b : Int32) : PairRows :=
  ⟨db.friends.count (a, b), db.friends.count (b, a), db.friendRequests.count (a, b),
    db.friendRequests.count (b, a)⟩

def PairState.rows : PairState → PairRows
  | none => ⟨0, 0, 0, 0⟩
  | requested => ⟨0, 0, 1, 0⟩
  | requestedBack => ⟨0, 0, 0, 1⟩
  | friends => ⟨1, 1, 0, 0⟩

/-- The tables after MSG_ADD_FRIEND when no query fails. -/
def Database.addFriend (db : Database) (f t : Int32) : Database :=
  if (f, t) ∈ db.friends ∨ db.users.byId t = none ∨ (f, t) ∈ db.friendRequests then db
  else if (t, f) ∈ db.friendRequests then
    { db with
      friends := db.friends ++ [(f, t)] ++ [(t, f)]
      friendRequests := db.friendRequests.filter (!between f t ·) }
  else { db with friendRequests := db.friendRequests ++ [(f, t)] }

/-- The tables after MSG_REMOVE_FRIEND when no query fails. -/
def Database.removeFriend (db : Database) (f t : Int32) : Database :=
  if (f, t) ∈ db.friends then { db with friends := db.friends.filter (!between f t ·) }
  else { db with friendRequests := db.friendRequests.filter (!between f t ·) }

def Database.friendOp (db : Database) : FriendOp → Database
  | .add f t => db.addFriend f t
  | .remove f t => db.removeFriend f t

variable {db : Database} {a b f t : Int32} {st : PairState}

theorem pairRows_swap (h : pairRows db a b = st.rows) : pairRows db b a = st.swap.rows := by
  cases st <;> simp only [pairRows, PairState.rows, PairState.swap, PairRows.mk.injEq] at h ⊢ <;>
    exact ⟨h.2.1, h.1, h.2.2.2, h.2.2.1⟩

theorem count_filter_between (l : List (Int32 × Int32)) (row : Int32 × Int32) :
    (l.filter (!between f t ·)).count row = if between f t row then 0 else l.count row := by
  split
  · next h =>
    rw [List.count_eq_zero]
    intro hmem
    rw [List.mem_filter] at hmem
    simp [h] at hmem
  · next h => exact List.count_filter (by simpa using h)

@[simp] theorem between_self : between a b (a, b) = true := by simp [between]

@[simp] theorem between_back : between a b (b, a) = true := by simp [between]

/-- The rows of a pair, read off its state. -/
theorem mem_of_pairRows (h : pairRows db a b = st.rows) :
    ((a, b) ∈ db.friends ↔ st = .friends) ∧ ((a, b) ∈ db.friendRequests ↔ st = .requested) ∧
      ((b, a) ∈ db.friendRequests ↔ st = .requestedBack) := by
  simp only [← List.count_pos_iff]
  cases st <;> simp only [pairRows, PairState.rows, PairRows.mk.injEq] at h <;> simp [h]

/-- `a` asks for `b`. -/
theorem pairRows_asked (hab : a ≠ b) (hb : (db.users.byId b).isSome)
    (h : pairRows db a b = st.rows) : pairRows (db.addFriend a b) a b = st.asked.rows := by
  have hrow : (b, a) ≠ (a, b) := fun he => hab (Prod.ext_iff.mp he).2
  have hknown : db.users.byId b ≠ none := Option.isSome_iff_ne_none.mp hb
  obtain ⟨hf, hab', hba'⟩ := mem_of_pairRows h
  simp only [Database.addFriend, hf, hab', hba', hknown, false_or]
  cases st <;> simp only [pairRows, PairState.rows, PairRows.mk.injEq] at h <;>
    simp [pairRows, PairState.rows, PairState.asked, h, count_filter_between, hrow, hrow.symm]

theorem pairRows_removed (h : pairRows db a b = st.rows) :
    pairRows (db.removeFriend a b) a b = PairState.none.rows := by
  obtain ⟨hf, _, _⟩ := mem_of_pairRows h
  simp only [Database.removeFriend, hf]
  cases st <;> simp only [pairRows, PairState.rows, PairRows.mk.injEq] at h <;>
    simp [pairRows, PairState.rows, h, count_filter_between]

theorem pairRows_apart (h : ¬ (f = a ∧ t = b)) (h' : ¬ (f = b ∧ t = a)) :
    pairRows (db.addFriend f t) a b = pairRows db a b ∧
      pairRows (db.removeFriend f t) a b = pairRows db a b := by
  have hft : (f, t) ≠ (a, b) := fun he => h (Prod.mk.injEq .. ▸ he)
  have hft' : (f, t) ≠ (b, a) := fun he => h' (Prod.mk.injEq .. ▸ he)
  have htf : (t, f) ≠ (a, b) := fun he => h' ⟨(Prod.ext_iff.mp he).2, (Prod.ext_iff.mp he).1⟩
  have htf' : (t, f) ≠ (b, a) := fun he => h ⟨(Prod.ext_iff.mp he).2, (Prod.ext_iff.mp he).1⟩
  have hno : between f t (a, b) = false := by simp [between, hft.symm, htf.symm]
  have hno' : between f t (b, a) = false := by simp [between, hft'.symm, htf'.symm]
  constructor
  · simp only [Database.addFriend]
    split_ifs <;> simp [pairRows, hno, hno', hft, hft', htf, htf']
  · simp only [Database.removeFriend]
    split_ifs <;> simp [pairRows, hno, hno']

/-- An operation on another pair, of accounts or not. -/
theorem pairRows_other {op : FriendOp} (hop : ¬ op.IsBetween a b) :
    pairRows (db.friendOp op) a b = pairRows db a b := by
  cases op with
  | add f t => exact (pairRows_apart (fun h => hop (.inl h)) fun h => hop (.inr h)).1
  | remove f t => exact (pairRows_apart (fun h => hop (.inl h)) fun h => hop (.inr h)).2

/-- One operation, on any pair of accounts: the tables make the step that the
machine of the pair makes. -/
theorem pairRows_step (hab : a ≠ b) (ha : (db.users.byId a).isSome)
    (hb : (db.users.byId b).isSome) (h : pairRows db a b = st.rows) (op : FriendOp) :
    pairRows (db.friendOp op) a b = (st.step a b op).rows := by
  have hback := pairRows_swap h
  cases op with
  | add f t =>
    simp only [Database.friendOp, PairState.step]
    split
    · next he => rw [he.1, he.2]; exact pairRows_asked hab hb h
    · next hne =>
      split
      · next he =>
        rw [he.1, he.2]
        exact pairRows_swap (pairRows_asked hab.symm ha hback)
      · next hne' => rw [(pairRows_apart hne hne').1, h]
  | remove f t =>
    simp only [Database.friendOp, PairState.step]
    split
    · next he =>
      rcases he with he | he
      · rw [he.1, he.2]; exact pairRows_removed h
      · rw [he.1, he.2]; exact pairRows_swap (pairRows_removed hback)
    · next hne =>
      rw [not_or] at hne
      rw [(pairRows_apart hne.1 hne.2).2, h]

/-- Asking for somebody who has no account changes no row. -/
theorem addFriend_unknown (ht : db.users.byId t = none) : db.addFriend f t = db := by
  rw [Database.addFriend, if_pos (.inr (.inl ht))]

theorem friendOp_users (op : FriendOp) : (db.friendOp op).users = db.users := by
  cases op with
  | add f t => simp only [Database.friendOp, Database.addFriend]; split_ifs <;> rfl
  | remove f t => simp only [Database.friendOp, Database.removeFriend]; split_ifs <;> rfl

end VhIM.Sql
