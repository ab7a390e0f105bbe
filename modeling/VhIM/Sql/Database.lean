import VhIM.Utility.StringsHelper

/-! # The database

The tables behind `sql_ch.c`, with the statements it issues taken as their
intended effect. The ids of `users` are handed out by the table itself: they
are positive and no id is handed out twice, so an id names at most one row. -/
namespace VhIM.Sql

def userIdInvalid : Int32 := -1

/-- What the functions of `sql_ch.c` return: `SQLV_…`. -/
inductive Sqlv where
  | success
  | failure
  | userNotFound
  | wrongPassword
  | connectionError
  | userExists
  | userAlreadyLoggedIn
  | entryExists
  | nope
  | otherExists
  deriving DecidableEq

def Sqlv.code : Sqlv → Int32
  | .success => 0
  | .failure => 1
  | .userNotFound => 2
  | .wrongPassword => 3
  | .connectionError => 4
  | .userExists => 5
  | .userAlreadyLoggedIn => 6
  | .entryExists => 7
  | .nope => 8
  | .otherExists => 9

/-- Code outside the repository that the queries and handlers rely on. -/
structure Externals where
  sha256 : List UInt8 → List UInt8
  /-- How the column `user` compares with a literal. -/
  nameEq : List UInt8 → List UInt8 → Bool

structure UserRow where
  id : Int32
  user : List UInt8
  password : List UInt8
  salt : List UInt8
  privilege : Nat
  deriving DecidableEq

structure Users where
  rows : List UserRow
  /-- The id the next row gets. -/
  nextId : Nat
  pos : 0 < nextId
  ids : ∀ r ∈ rows, 0 < r.id.toInt ∧ r.id.toInt < nextId
  nodup : (rows.map UserRow.id).Nodup

namespace Users

def empty : Users := ⟨[], 1, by decide, by simp, by simp⟩

/-- `SELECT … FROM users WHERE user = '…' LIMIT 1`. -/
def byName (lib : Externals) (us : Users) (user : List UInt8) : Option UserRow :=
  us.rows.find? (fun r => lib.nameEq r.user user)

/-- `SELECT … FROM users WHERE id = '…'`. -/
def byId (us : Users) (id : Int32) : Option UserRow := us.rows.find? (fun r => r.id = id)

/-- `INSERT INTO users VALUES(DEFAULT, '…', '…', '…', '0')`; it fails once the
ids are used up. -/
def insert (us : Users) (user password salt : List UInt8) : Option Users :=
  if hid : us.nextId < 2 ^ 31 then
    have hint : (Int32.ofNat us.nextId).toInt = us.nextId := Int32.toInt_ofNat_of_lt hid
    some
      { rows := us.rows ++ [⟨Int32.ofNat us.nextId, user, password, salt, 0⟩]
        nextId := us.nextId + 1
        pos := Nat.succ_pos _
        ids := by
          intro r hr
          rcases List.mem_append.mp hr with hr | hr
          · have := us.ids r hr
            omega
          · have hpos := us.pos
            rw [List.mem_singleton.mp hr]
            simp only [hint]
            omega
        nodup := by
          rw [List.map_append, List.nodup_append]
          refine ⟨us.nodup, by simp, ?_⟩
          intro a ha b hb
          obtain ⟨r, hr, rfl⟩ := List.mem_map.mp ha
          rw [List.map_singleton, List.mem_singleton] at hb
          have hlt := (us.ids r hr).2
          intro he
          rw [he, hb, hint] at hlt
          omega }
  else none

/-- `UPDATE users SET privilege = '…' WHERE id = '…'`. -/
def setPrivilege (us : Users) (id : Int32) (p : Nat) : Users :=
  { us with
    rows := us.rows.map fun r => if r.id = id then { r with privilege := p } else r
    ids := by
      intro r hr
      obtain ⟨r', hr', rfl⟩ := List.mem_map.mp hr
      have := us.ids r' hr'
      split <;> exact this
    nodup := by
      have hid : UserRow.id ∘ (fun r => if r.id = id then { r with privilege := p } else r) =
          UserRow.id := by
        funext r
        simp only [Function.comp]
        split <;> rfl
      rw [List.map_map, hid]
      exact us.nodup }

theorem eq_of_id_eq {us : Users} {r r' : UserRow} (h : r ∈ us.rows) (h' : r' ∈ us.rows)
    (hid : r.id = r'.id) : r = r' :=
  List.inj_on_of_nodup_map us.nodup h h' hid

theorem byId_eq_some {us : Users} {row : UserRow} (h : row ∈ us.rows) :
    us.byId row.id = some row := by
  cases hfound : us.byId row.id with
  | none => exact absurd (by simp) (List.find?_eq_none.mp hfound row h)
  | some row' =>
    have hid : row'.id = row.id := by simpa using List.find?_some hfound
    rw [eq_of_id_eq (List.mem_of_find?_eq_some hfound) h hid]

theorem mem_setPrivilege {us : Users} {v : Int32} {p : Nat} {row : UserRow} :
    row ∈ (us.setPrivilege v p).rows ↔ (row ∈ us.rows ∧ row.id ≠ v) ∨
      ∃ row' ∈ us.rows, row'.id = v ∧ row = { row' with privilege := p } := by
  simp only [setPrivilege, List.mem_map]
  constructor
  · rintro ⟨row', hrow', rfl⟩
    by_cases hid : row'.id = v
    · rw [if_pos hid]
      exact .inr ⟨row', hrow', hid, rfl⟩
    · rw [if_neg hid]
      exact .inl ⟨hrow', hid⟩
  · intro h
    rcases h with ⟨hrow, hid⟩ | ⟨row', hrow', hid, rfl⟩
    · exact ⟨row, hrow, if_neg hid⟩
    · exact ⟨row', hrow', if_pos hid⟩

theorem byName_some {lib : Externals} {us : Users} {user : List UInt8} {row : UserRow}
    (h : us.byName lib user = some row) : row ∈ us.rows ∧ lib.nameEq row.user user = true := by
  rw [byName] at h
  have hp := List.find?_some h
  exact ⟨List.mem_of_find?_eq_some h, hp⟩

theorem insert_rows {us us' : Users} {user password salt : List UInt8}
    (h : us.insert user password salt = some us') :
    us'.rows = us.rows ++ [⟨Int32.ofNat us.nextId, user, password, salt, 0⟩] := by
  simp only [insert] at h
  split at h
  · cases h; rfl
  · cases h

end Users

/-- Rows of two ids are equal when their columns are. -/
instance lawfulBEqRow : LawfulBEq (Int32 × Int32) := inferInstance

/-- The tables; a row of `friends` or `friendRequests` is its two ids. -/
structure Database where
  users : Users
  friends : List (Int32 × Int32)
  friendRequests : List (Int32 × Int32)
  groups : List (List UInt8 × Int32)

def Database.empty : Database := ⟨.empty, [], [], []⟩

/-- Whether a row mentions both users, in either direction. -/
def between (a b : Int32) (row : Int32 × Int32) : Bool := row = (a, b) ∨ row = (b, a)

end VhIM.Sql
