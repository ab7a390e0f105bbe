import VhIM.Sql.SqlCh

/-! # What a call leaves to others

The calls that a user's messages lead to, on the rows that do not mention the
user. -/
namespace VhIM.Sql

def mentions (uid : Int32) (row : Int32 × Int32) : Bool := row.1 = uid ∨ row.2 = uid

def others (uid : Int32) (rows : List (Int32 × Int32)) : List (Int32 × Int32) :=
  rows.filter (!mentions uid ·)

/-- What an account is stored with, but for its privilege. -/
def UserRow.account (row : UserRow) : Int32 × List UInt8 × List UInt8 × List UInt8 :=
  (row.id, row.user, row.password, row.salt)

/-- Between the two states the rows of `friends` and `friend_requests` about
others stay, no group comes to be but of `uid`, and no account changes. -/
structure LeavesOthers (uid : Int32) (db db' : Database) : Prop where
  friends : others uid db'.friends = others uid db.friends
  friendRequests : others uid db'.friendRequests = others uid db.friendRequests
  groups : ∃ added, db'.groups = db.groups ++ added ∧ ∀ row ∈ added, row.2 = uid
  accounts : db'.users.rows.map UserRow.account = db.users.rows.map UserRow.account

variable {uid a b : Int32} {db db' db'' : Database}

theorem no_group (uid : Int32) (groups : List (List UInt8 × Int32)) :
    ∃ added, groups = groups ++ added ∧ ∀ row ∈ added, row.2 = uid :=
  ⟨[], (List.append_nil _).symm, fun _ hrow => absurd hrow List.not_mem_nil⟩

theorem LeavesOthers.refl (uid : Int32) (db : Database) : LeavesOthers uid db db :=
  ⟨rfl, rfl, no_group uid db.groups, rfl⟩

theorem LeavesOthers.trans (h : LeavesOthers uid db db') (h' : LeavesOthers uid db' db'') :
    LeavesOthers uid db db'' := by
  obtain ⟨added, hadded, hown⟩ := h.groups
  obtain ⟨added', hadded', hown'⟩ := h'.groups
  refine ⟨h'.friends.trans h.friends, h'.friendRequests.trans h.friendRequests, ?_,
    h'.accounts.trans h.accounts⟩
  refine ⟨added ++ added', by rw [hadded', hadded, List.append_assoc], ?_⟩
  intro row hrow
  exact (List.mem_append.mp hrow).elim (hown row) (hown' row)

/-- A row that mentions the user is not among those about others. -/
theorem others_append_own (rows : List (Int32 × Int32)) {row : Int32 × Int32}
    (h : row.1 = uid ∨ row.2 = uid) : others uid (rows ++ [row]) = others uid rows := by
  have hown : mentions uid row = true := by simpa [mentions] using h
  simp [others, hown]

/-- Rows between the user and anybody are not, either. -/
theorem others_filter_between (rows : List (Int32 × Int32)) (h : a = uid ∨ b = uid) :
    others uid (rows.filter (!between a b ·)) = others uid rows := by
  rw [others, others, List.filter_filter]
  apply List.filter_congr
  intro row _
  cases hown : mentions uid row with
  | true => rfl
  | false =>
    have hbetween : between a b row = false := by
      simp only [mentions, between, decide_eq_false_iff_not, not_or] at hown ⊢
      constructor
      · rintro rfl
        exact h.elim hown.1 hown.2
      · rintro rfl
        exact h.elim hown.2 hown.1
    rw [hbetween]
    rfl

/-! ## The calls -/

variable (ok : SqlStep → Bool) (db)

theorem sqlChCreateFriendRequest_others (h : a = uid ∨ b = uid) :
    LeavesOthers uid db (sqlChCreateFriendRequest ok db a b).2 := by
  unfold sqlChCreateFriendRequest
  split_ifs
  all_goals try exact .refl uid db
  exact ⟨rfl, others_append_own _ h, no_group uid db.groups, rfl⟩

theorem sqlChCreateFriends_others (h : a = uid ∨ b = uid) :
    LeavesOthers uid db (sqlChCreateFriends ok db a b).2 := by
  have hgroups := no_group uid db.groups
  have hfirst : others uid (db.friends ++ [(a, b)]) = others uid db.friends :=
    others_append_own _ h
  have hsecond : others uid (db.friends ++ [(a, b)] ++ [(b, a)]) = others uid db.friends :=
    (others_append_own _ h.symm).trans hfirst
  simp only [sqlChCreateFriends]
  split_ifs
  · exact .refl uid db
  · exact .refl uid db
  · exact ⟨hfirst, rfl, hgroups, rfl⟩
  · exact ⟨hsecond, rfl, hgroups, rfl⟩
  · exact ⟨hsecond, others_filter_between _ h, hgroups, rfl⟩

theorem sqlChDeleteFriends_others (h : a = uid ∨ b = uid) :
    LeavesOthers uid db (sqlChDeleteFriends ok db a b).2 := by
  have hgroups := no_group uid db.groups
  unfold sqlChDeleteFriends
  split_ifs
  all_goals try exact .refl uid db
  · exact ⟨others_filter_between _ h, rfl, hgroups, rfl⟩
  · exact ⟨rfl, others_filter_between _ h, hgroups, rfl⟩

theorem sqlChCreateGroup_others (name : List UInt8) :
    LeavesOthers uid db (sqlChCreateGroup ok db name uid).2 := by
  unfold sqlChCreateGroup
  split_ifs
  · exact .refl uid db
  · exact .refl uid db
  · refine ⟨rfl, rfl, ⟨[(name, uid)], rfl, ?_⟩, rfl⟩
    intro row hrow
    rw [List.mem_singleton.mp hrow]

/-- The privilege is not part of the account. -/
theorem sqlChUpdatePrivileges_others (v : Int32) (p : UInt8) :
    LeavesOthers uid db (sqlChUpdatePrivileges ok db v p).2 := by
  unfold sqlChUpdatePrivileges
  split_ifs
  · exact .refl uid db
  · exact .refl uid db
  · refine ⟨rfl, rfl, no_group uid db.groups, ?_⟩
    simp only [Users.setPrivilege, List.map_map]
    apply List.map_congr_left
    intro row _
    simp only [Function.comp]
    split <;> rfl

end VhIM.Sql
