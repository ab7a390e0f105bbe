import VhIM.Sql.Friendship
import VhIM.Sql.Others

/-! # Integrity of the tables

What the rows of `friends`, `friend_requests` and `groups` may be: they name
accounts, and nobody is a friend of himself. The functions of `sql_ch.c` keep
to it whichever of their queries fail. That a pair of users is always in one
of the four states needs all of them to succeed. -/
namespace VhIM.Sql

def Users.Has (us : Users) (id : Int32) : Prop := ∃ r ∈ us.rows, r.id = id

/-- Every row names accounts, and nobody is a friend of himself. -/
structure Database.Sound (db : Database) : Prop where
  friends : ∀ row ∈ db.friends, db.users.Has row.1 ∧ db.users.Has row.2 ∧ row.1 ≠ row.2
  requests : ∀ row ∈ db.friendRequests, db.users.Has row.1 ∧ db.users.Has row.2
  groups : ∀ row ∈ db.groups, db.users.Has row.2

def Users.Grown (us us' : Users) : Prop := ∀ id, us.Has id → us'.Has id

variable {db : Database} {us us' : Users} {a b f t : Int32}

theorem Users.Grown.of_eq (h : us' = us) : us.Grown us' := fun _ hid => h ▸ hid

theorem Users.has_of_byId (h : (us.byId a).isSome) : us.Has a := by
  obtain ⟨r, hr⟩ := Option.isSome_iff_exists.mp h
  exact ⟨r, List.mem_of_find?_eq_some hr, by simpa using List.find?_some hr⟩

theorem Users.grown_setPrivilege (us : Users) (v : Int32) (p : Nat) :
    us.Grown (us.setPrivilege v p) := by
  rintro id ⟨r, hr, rfl⟩
  by_cases hid : r.id = v
  · exact ⟨_, mem_setPrivilege.mpr (.inr ⟨r, hr, hid, rfl⟩), rfl⟩
  · exact ⟨r, mem_setPrivilege.mpr (.inl ⟨hr, hid⟩), rfl⟩

theorem Users.grown_insert {user pw salt : List UInt8} (h : us.insert user pw salt = some us') :
    us.Grown us' := by
  rintro id ⟨r, hr, hid⟩
  exact ⟨r, insert_rows h ▸ List.mem_append_left _ hr, hid⟩

/-! ## The calls, whatever fails -/

variable (ok : SqlStep → Bool)

theorem Database.Sound.withUsers (h : db.Sound) (hus : db.users.Grown us) :
    Database.Sound { db with users := us } where
  friends row hrow := ⟨hus _ (h.friends row hrow).1, hus _ (h.friends row hrow).2.1,
    (h.friends row hrow).2.2⟩
  requests row hrow := ⟨hus _ (h.requests row hrow).1, hus _ (h.requests row hrow).2⟩
  groups row hrow := hus _ (h.groups row hrow)

theorem Database.Sound.befriend (h : db.Sound) (ha : db.users.Has a) (hb : db.users.Has b)
    (hab : a ≠ b) : Database.Sound { db with friends := db.friends ++ [(a, b)] } where
  friends row hrow := by
    rcases List.mem_append.mp hrow with hrow | hrow
    · exact h.friends row hrow
    · rw [List.mem_singleton.mp hrow]
      exact ⟨ha, hb, hab⟩
  requests := h.requests
  groups := h.groups

theorem Database.Sound.filterRequests (h : db.Sound) (p : Int32 × Int32 → Bool) :
    Database.Sound { db with friendRequests := db.friendRequests.filter p } :=
  ⟨h.friends, fun row hrow => h.requests row (List.mem_of_mem_filter hrow), h.groups⟩

theorem sqlChAddUser_sound (lib : Externals) (salt user pw : List UInt8) (h : db.Sound) :
    (sqlChAddUser ok lib salt db user pw).2.Sound ∧
      db.users.Grown (sqlChAddUser ok lib salt db user pw).2.users := by
  obtain hsame | ⟨users, _, hins, hadd⟩ := sqlChAddUser_cases ok lib salt db user pw
  · rw [hsame]
    exact ⟨h, .of_eq rfl⟩
  · rw [hadd]
    exact ⟨h.withUsers (Users.grown_insert hins), Users.grown_insert hins⟩

theorem sqlChUpdatePrivileges_sound (uid : Int32) (p : UInt8) (h : db.Sound) :
    (sqlChUpdatePrivileges ok db uid p).2.Sound ∧
      db.users.Grown (sqlChUpdatePrivileges ok db uid p).2.users := by
  have hgrown := db.users.grown_setPrivilege uid p.toNat
  simp only [sqlChUpdatePrivileges]
  split_ifs
  · exact ⟨h, .of_eq rfl⟩
  · exact ⟨h, .of_eq rfl⟩
  · exact ⟨h.withUsers hgrown, hgrown⟩

theorem sqlChCreateFriendRequest_sound (h : db.Sound) (hf : db.users.Has f)
    (ht : db.users.Has t) : (sqlChCreateFriendRequest ok db f t).2.Sound := by
  unfold sqlChCreateFriendRequest
  split_ifs
  all_goals try exact h
  refine ⟨h.friends, ?_, h.groups⟩
  intro row hrow
  rcases List.mem_append.mp hrow with hrow | hrow
  · exact h.requests row hrow
  · rw [List.mem_singleton.mp hrow]
    exact ⟨hf, ht⟩

/-- The other user has asked before, and not for himself. -/
theorem sqlChCreateFriendRequest_other
    (h : (sqlChCreateFriendRequest ok db f t).1 = .otherExists) :
    (sqlChCreateFriendRequest ok db f t).2 = db ∧ f ≠ t := by
  revert h
  unfold sqlChCreateFriendRequest
  split_ifs with _ _ _ hft _ _ htf
  all_goals intro h
  all_goals try cases h
  refine ⟨rfl, ?_⟩
  rintro rfl
  exact hft htf

theorem sqlChCreateFriends_sound (h : db.Sound) (ha : db.users.Has a) (hb : db.users.Has b)
    (hab : a ≠ b) : (sqlChCreateFriends ok db a b).2.Sound := by
  have hfirst := h.befriend ha hb hab
  have hboth := hfirst.befriend hb ha hab.symm
  simp only [sqlChCreateFriends]
  split_ifs
  · exact h
  · exact h
  · exact hfirst
  · exact hboth
  · exact hboth.filterRequests _

theorem sqlChDeleteFriends_sound (h : db.Sound) : (sqlChDeleteFriends ok db a b).2.Sound := by
  unfold sqlChDeleteFriends
  split_ifs
  all_goals try exact h
  · exact ⟨fun row hrow => h.friends row (List.mem_of_mem_filter hrow), h.requests, h.groups⟩
  · exact h.filterRequests _

theorem sqlChCreateGroup_sound (h : db.Sound) (ha : db.users.Has a) (name : List UInt8) :
    (sqlChCreateGroup ok db name a).2.Sound := by
  unfold sqlChCreateGroup
  split_ifs
  · exact h
  · exact h
  · refine ⟨h.friends, h.requests, ?_⟩
    intro row hrow
    rcases List.mem_append.mp hrow with hrow | hrow
    · exact h.groups row hrow
    · rw [List.mem_singleton.mp hrow]
      exact ha

/-! ## When nothing fails -/

/-- Any two users are in one of the four states, and who has asked himself has
done so once. -/
structure Database.Paired (db : Database) : Prop where
  pairs : ∀ a b, a ≠ b → ∃ st : PairState, pairRows db a b = st.rows
  self : ∀ a, db.friends.count (a, a) = 0 ∧ db.friendRequests.count (a, a) ≤ 1

theorem Database.Paired.empty (hf : db.friends = []) (hr : db.friendRequests = []) :
    db.Paired := by
  refine ⟨fun a b _ => ⟨.none, ?_⟩, fun a => ?_⟩
  · simp [pairRows, PairState.rows, hf, hr]
  · simp [hf, hr]

theorem Database.Paired.addFriend (h : db.Paired) (f t : Int32) : (db.addFriend f t).Paired := by
  cases ht : db.users.byId t with
  | none => rw [addFriend_unknown ht]; exact h
  | some row =>
    refine ⟨fun a b hab => ?_, fun a => ?_⟩
    · obtain ⟨st, hst⟩ := h.pairs a b hab
      by_cases hop : f = a ∧ t = b
      · obtain ⟨rfl, rfl⟩ := hop
        exact ⟨_, pairRows_asked hab (by rw [ht]; rfl) hst⟩
      · by_cases hop' : f = b ∧ t = a
        · obtain ⟨rfl, rfl⟩ := hop'
          exact ⟨_, pairRows_swap (pairRows_asked hab.symm (by rw [ht]; rfl) (pairRows_swap hst))⟩
        · exact ⟨st, (pairRows_apart hop hop').1.trans hst⟩
    · obtain ⟨hno, hone⟩ := h.self a
      simp only [Database.addFriend]
      split_ifs with hkeep hother
      · exact ⟨hno, hone⟩
      · -- nobody's own request gets here
        have hft : f ≠ t := fun he => hkeep (.inr (.inr (by rw [he] at hother ⊢; exact hother)))
        refine ⟨?_, ?_⟩
        · simp only [List.count_append, hno, List.count_singleton, beq_iff_eq, Prod.mk.injEq]
          rw [if_neg fun he => hft (he.1.trans he.2.symm),
            if_neg fun he => hft (he.2.trans he.1.symm)]
        · exact (List.Sublist.count_le _ List.filter_sublist).trans hone
      · refine ⟨hno, ?_⟩
        rw [List.count_append, List.count_singleton]
        split
        · next he =>
          rw [beq_iff_eq] at he
          have hzero : db.friendRequests.count (a, a) = 0 := by
            rw [← he]
            exact List.count_eq_zero.mpr fun hin => hkeep (.inr (.inr hin))
          omega
        · exact hone

theorem Database.Paired.removeFriend (h : db.Paired) (f t : Int32) :
    (db.removeFriend f t).Paired := by
  refine ⟨fun a b hab => ?_, fun a => ?_⟩
  · obtain ⟨st, hst⟩ := h.pairs a b hab
    by_cases hop : f = a ∧ t = b
    · obtain ⟨rfl, rfl⟩ := hop
      exact ⟨_, pairRows_removed hst⟩
    · by_cases hop' : f = b ∧ t = a
      · obtain ⟨rfl, rfl⟩ := hop'
        exact ⟨_, pairRows_swap (pairRows_removed (pairRows_swap hst))⟩
      · exact ⟨st, (pairRows_apart hop hop').2.trans hst⟩
  · obtain ⟨hno, hone⟩ := h.self a
    simp only [Database.removeFriend]
    split
    · exact ⟨Nat.le_zero.mp (hno ▸ List.Sublist.count_le _ List.filter_sublist), hone⟩
    · exact ⟨hno, (List.Sublist.count_le _ List.filter_sublist).trans hone⟩

theorem Database.Paired.friendOp (h : db.Paired) (op : FriendOp) : (db.friendOp op).Paired := by
  cases op with
  | add f t => exact h.addFriend f t
  | remove f t => exact h.removeFriend f t

/-- A friendship is there in both directions or in none, and each row once. -/
theorem Database.Paired.symm (h : db.Paired) : (a, b) ∈ db.friends ↔ (b, a) ∈ db.friends := by
  by_cases hab : a = b
  · rw [hab]
  · obtain ⟨st, hst⟩ := h.pairs a b hab
    rw [(mem_of_pairRows hst).1, (mem_of_pairRows (pairRows_swap hst)).1]
    cases st <;> simp [PairState.swap]

theorem Database.Paired.nodup (h : db.Paired) : db.friends.Nodup ∧ db.friendRequests.Nodup := by
  have hcount : ∀ a b, db.friends.count (a, b) ≤ 1 ∧ db.friendRequests.count (a, b) ≤ 1 := by
    intro a b
    by_cases hab : a = b
    · subst hab
      obtain ⟨hno, hone⟩ := h.self a
      exact ⟨by omega, hone⟩
    · obtain ⟨st, hst⟩ := h.pairs a b hab
      cases st <;> simp only [pairRows, PairState.rows, PairRows.mk.injEq] at hst <;> omega
  exact ⟨List.nodup_iff_count_le_one.mpr fun row => (hcount row.1 row.2).1,
    List.nodup_iff_count_le_one.mpr fun row => (hcount row.1 row.2).2⟩

end VhIM.Sql
