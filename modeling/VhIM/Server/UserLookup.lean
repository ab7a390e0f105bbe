import VhIM.Lib.SearchTree
import VhIM.Server.State

/-! # The tree of users

`server.c` hands the tree two comparators that subtract ids. The difference of
two `int`s wraps, so its sign can be wrong when one of them is not the id of
an account. -/
namespace VhIM.Server
open VhIM.Lib VhIM.Lib.SearchTree

def compareUserId (e value : ServerUser) : Int := (e.id - value.id).toInt

def compareUserIdDirectly (e : ServerUser) (value : Int32) : Int := (e.id - value).toInt

/-- `get_user_by_id` on the tree itself. -/
def searchUser (users : BinaryTree ServerUser) (id : Int32) : Option ServerUser :=
  search (fun e => compareUserIdDirectly e id) users

/-! ## The difference of two ids -/

/-- Between ids of accounts it does not wrap. -/
theorem toInt_sub_of_pos {a b : Int32} (ha : 0 < a) (hb : 0 < b) :
    (a - b).toInt = a.toInt - b.toInt := by
  rw [Int32.lt_iff_toInt_lt, Int32.toInt_zero] at ha hb
  have hmax := a.toInt_lt
  have hmax' := b.toInt_lt
  rw [Int32.toInt_sub]
  exact Int.bmod_eq_of_le (by omega) (by omega)

/-- Wrapped or not, it is 0 for equal ids only. -/
theorem toInt_sub_eq_zero {a b : Int32} : (a - b).toInt = 0 ↔ a = b := by
  rw [← Int32.toInt_zero, Int32.toInt_inj]
  constructor
  · intro h
    have hcancel := Int32.sub_add_cancel a b
    rw [h, Int32.zero_add] at hcancel
    exact hcancel.symm
  · rintro rfl
    exact Int32.sub_self a

theorem compareUserId_ordersBy {s : Set ServerUser} (hids : ∀ u ∈ s, 0 < u.id) :
    OrdersBy compareUserId (fun su => su.id.toInt) s := by
  intro a ha b hb
  simp only [compareUserId, toInt_sub_of_pos (hids a ha) (hids b hb)]
  omega

/-! ## Search -/

variable {users : BinaryTree ServerUser}

/-- A wrong turn is taken for the key of nobody only. -/
theorem searchUser_eq_some (hids : ∀ u ∈ inorder users, 0 < u.id)
    (hordered : Ordered compareUserId users) (key : Int32) (u : ServerUser) :
    searchUser users key = some u ↔ u ∈ inorder users ∧ u.id = key := by
  have hzero : compareUserIdDirectly u key = 0 ↔ u.id = key := toInt_sub_eq_zero
  constructor
  · intro h
    obtain ⟨hmem, hprobe⟩ := search_sound h
    exact ⟨hmem, hzero.mp hprobe⟩
  · rintro ⟨hmem, rfl⟩
    refine search_complete hordered (fun b hb => ?_) hmem (hzero.mpr rfl)
    -- the key is the id of an account, and the probe the opposite of the comparator
    simp only [compareUserId, compareUserIdDirectly,
      toInt_sub_of_pos (hids u hmem) (hids b hb), toInt_sub_of_pos (hids b hb) (hids u hmem)]
    omega

/-- In a tree of any shape that `compare_user_id` orders, any key at all finds
the user whose id it is, or nobody. -/
theorem user_lookup_exact (users : BinaryTree ServerUser) (hids : ∀ u ∈ inorder users, 0 < u.id)
    (hordered : Ordered compareUserId users) (key : Int32) :
    (∀ u, searchUser users key = some u ↔ u ∈ inorder users ∧ u.id = key) ∧
      (searchUser users key = none ↔ ∀ u ∈ inorder users, u.id ≠ key) := by
  have hsome := searchUser_eq_some hids hordered key
  refine ⟨hsome, ?_⟩
  rw [Option.eq_none_iff_forall_not_mem]
  constructor
  · exact fun h u hu hid => h u ((hsome u).mpr ⟨hu, hid⟩)
  · exact fun h u hu => h u ((hsome u).mp hu).1 ((hsome u).mp hu).2

/-- One user of the smallest id and one of the largest, and the key that is
farthest from both. -/
theorem user_lookup_exact_far :
    let users := BinaryTree.node ⟨1, 0, [], [97], 0⟩
      .nil (.node ⟨2147483647, 0, [], [98], 0⟩ .nil .nil)
    searchUser users (-2147483648) = none := by
  intro users
  have hordered : Ordered compareUserId users :=
    ⟨by simp [inorder], by simp [inorder, compareUserId],
      trivial, by simp [inorder], by simp [inorder], trivial, trivial⟩
  exact (user_lookup_exact users (by simp [users, inorder]) hordered _).2.mpr
    (by simp [users, inorder])

/-! ## The users online -/

variable {s : ServerState}

/-- Any tree of the users online answers as the set of them does. -/
theorem searchUser_eq_getUserById (hids : ∀ u ∈ s.users, 0 < u.id)
    (helems : inorder users = s.users.elems) (id : Int32) :
    searchUser users id = s.getUserById id := by
  have hpos : ∀ u ∈ inorder users, 0 < u.id := fun u hu => hids u (by rw [helems] at hu; exact hu)
  have hordered : Ordered compareUserId users :=
    (ordered_iff_sorted (compareUserId_ordersBy hpos)).mpr (helems ▸ s.users.sorted)
  ext u
  rw [searchUser_eq_some hpos hordered, helems, ServerState.getUserById, OrderedSet.search_eq_some,
    Int32.toInt_inj]
  rfl

/-- And `add_server_user` keeps it one. -/
theorem inorder_addServerUser (hids : ∀ u ∈ s.users, 0 < u.id)
    (helems : inorder users = s.users.elems) {su : ServerUser} (hsu : 0 < su.id) :
    inorder (SearchTree.insert compareUserId su users) = (s.addServerUser su).users.elems := by
  have horders : OrdersBy compareUserId (fun su => su.id.toInt)
      {u | u = su ∨ u ∈ inorder users} := by
    apply compareUserId_ordersBy
    rintro u (rfl | hu)
    · exact hsu
    · exact hids u (by rw [helems] at hu; exact hu)
  rw [inorder_insert horders (helems ▸ s.users.sorted), helems]
  rfl

end VhIM.Server
