import VhIM.Sql.SqlCh

/-! # Registration and login

Who can log in after a sequence of registrations. The two functions hash a
password in the same way, one with the salt it has drawn and one with the salt
it has fetched; that they agree for the registered password and for no other
is a matter of the texts in between. -/
namespace VhIM.Sql
open VhIM.Utility

/-- A call of `sql_ch_add_user`, with what `RAND_bytes` gives. -/
structure AddUserCall where
  saltBytes : List UInt8
  user : List UInt8
  pw : List UInt8

def allOk : SqlStep → Bool := fun _ => true

variable (lib : Externals)

def AddUserCall.run (db : Database) (c : AddUserCall) : Sqlv × Database :=
  sqlChAddUser allOk lib c.saltBytes db c.user c.pw

def addUsers (db : Database) : List AddUserCall → Database
  | [] => db
  | c :: cs => addUsers (c.run lib db).2 cs

/-- The first call for the name that succeeds: its password, and the id that
the table gives its row. -/
def registration (user : List UInt8) (db : Database) :
    List AddUserCall → Option (List UInt8 × Int32)
  | [] => none
  | c :: cs =>
    if c.user = user ∧ (c.run lib db).1 = .success then
      some (c.pw, Int32.ofNat db.users.nextId)
    else registration user (c.run lib db).2 cs

variable {lib} {db : Database} {user : List UInt8}

/-- Different passwords are stored differently. -/
theorem hexedHash_inj (hsha : Function.Injective lib.sha256) {salt pw pw' : List UInt8}
    (h : hexedHash lib salt pw = hexedHash lib salt pw') : pw = pw' :=
  List.append_cancel_left (hsha (ubytesToString_injective h))

/-! ## One call -/

/-- A call adds a row, at the end, if the name is not there yet and there is
an id left. -/
theorem run_cases (lib : Externals) (db : Database) (c : AddUserCall) :
    (db.users.byName lib c.user ≠ none ∧ c.run lib db = (.userExists, db)) ∨
    (db.users.byName lib c.user = none ∧ c.run lib db = (.connectionError, db)) ∨
    (db.users.byName lib c.user = none ∧ ∃ users salt,
      c.run lib db = (.success, { db with users := users }) ∧
      users.rows = db.users.rows ++
        [⟨Int32.ofNat db.users.nextId, c.user, hexedHash lib salt c.pw, salt, 0⟩]) := by
  cases hrow : db.users.byName lib c.user with
  | some row =>
    refine .inl ⟨by simp, ?_⟩
    simp [AddUserCall.run, sqlChAddUser, allOk, hrow]
  | none =>
    refine .inr ?_
    simp only [AddUserCall.run, sqlChAddUser, allOk, hrow]
    cases hins : db.users.insert c.user
      (hexedHash lib (ubytesToString c.saltBytes) c.pw) (ubytesToString c.saltBytes) with
    | none => exact .inl ⟨trivial, by simp⟩
    | some users => exact .inr ⟨trivial, users, _, by simp, Users.insert_rows hins⟩

/-- Names that are there are found where they were; of the others the call
adds its own, if it succeeds. -/
theorem byName_run (hname : ∀ a b, lib.nameEq a b = decide (a = b)) (c : AddUserCall) :
    (∀ row, db.users.byName lib user = some row →
      (c.run lib db).2.users.byName lib user = some row) ∧
    (db.users.byName lib user = none →
      if c.user = user ∧ (c.run lib db).1 = .success then
        ∃ salt, (c.run lib db).2.users.byName lib user =
          some ⟨Int32.ofNat db.users.nextId, user, hexedHash lib salt c.pw, salt, 0⟩
      else (c.run lib db).2.users.byName lib user = none) := by
  rcases run_cases lib db c with ⟨_, hrun⟩ | ⟨_, hrun⟩ | ⟨_, users, salt, hrun, hrows⟩
  · rw [hrun]
    exact ⟨fun _ h => h, fun h => by rw [if_neg (by simp)]; exact h⟩
  · rw [hrun]
    exact ⟨fun _ h => h, fun h => by rw [if_neg (by simp)]; exact h⟩
  · rw [hrun]
    simp only [Users.byName, hrows, List.find?_append]
    refine ⟨fun row h => by rw [h]; rfl, fun h => ?_⟩
    rw [h]
    by_cases hu : c.user = user
    · subst hu
      rw [if_pos ⟨rfl, trivial⟩]
      exact ⟨salt, by simp [hname]⟩
    · rw [if_neg (fun h => hu h.1)]
      simp [hname, hu]

/-! ## Every sequence -/

/-- A name that is there keeps its row, and is not registered again. -/
theorem addUsers_keeps (hname : ∀ a b, lib.nameEq a b = decide (a = b)) {row : UserRow}
    (calls : List AddUserCall) (h : db.users.byName lib user = some row) :
    (addUsers lib db calls).users.byName lib user = some row ∧
      registration lib user db calls = none := by
  induction calls generalizing db with
  | nil => exact ⟨h, rfl⟩
  | cons c cs ih =>
    obtain ⟨hfound, hreg⟩ := ih ((byName_run hname c).1 row h)
    refine ⟨hfound, ?_⟩
    rw [registration, if_neg ?_, hreg]
    rintro ⟨rfl, hsuccess⟩
    rcases run_cases lib db c with ⟨_, hrun⟩ | ⟨hnone, _⟩ | ⟨hnone, _⟩
    · rw [hrun] at hsuccess; cases hsuccess
    · rw [h] at hnone; cases hnone
    · rw [h] at hnone; cases hnone

/-- What is found under a name that was not there. -/
theorem addUsers_adds (hname : ∀ a b, lib.nameEq a b = decide (a = b)) (calls : List AddUserCall)
    (h : db.users.byName lib user = none) :
    match registration lib user db calls with
    | some (pw, id) => ∃ salt, (addUsers lib db calls).users.byName lib user =
        some ⟨id, user, hexedHash lib salt pw, salt, 0⟩
    | none => (addUsers lib db calls).users.byName lib user = none := by
  induction calls generalizing db with
  | nil => exact h
  | cons c cs ih =>
    have hadds := (byName_run hname c).2 h
    unfold registration
    split at hadds
    · next hc =>
      obtain ⟨salt, hrow⟩ := hadds
      rw [if_pos hc]
      exact ⟨salt, (addUsers_keeps hname cs hrow).1⟩
    · next hc =>
      rw [if_neg hc]
      exact ih hadds

/-- What a login finds. -/
theorem checkUserAuth_eq (lib : Externals) (db : Database) (user pw : List UInt8) :
    sqlChCheckUserAuth allOk lib db user pw =
      match db.users.byName lib user with
      | some row =>
        if row.password ≠ hexedHash lib row.salt pw then (userIdInvalid, .wrongPassword)
        else (row.id, .success)
      | none => (userIdInvalid, .userNotFound) := rfl

/-- In a table that was empty a name is found exactly if it was registered, with
what its first registration stored. -/
theorem addUsers_empty (hname : ∀ a b, lib.nameEq a b = decide (a = b))
    (hempty : db.users.rows = []) (calls : List AddUserCall) (user : List UInt8) :
    match registration lib user db calls with
    | some (pw, id) => ∃ salt, (addUsers lib db calls).users.byName lib user =
        some ⟨id, user, hexedHash lib salt pw, salt, 0⟩
    | none => (addUsers lib db calls).users.byName lib user = none := by
  apply addUsers_adds hname calls
  rw [Users.byName, hempty]
  rfl

/-- The password that a login gives is compared with the one registered. -/
theorem checkUserAuth_registered (hsha : Function.Injective lib.sha256) {id : Int32}
    {salt pw : List UInt8} {privilege : Nat}
    (h : db.users.byName lib user = some ⟨id, user, hexedHash lib salt pw, salt, privilege⟩)
    (q : List UInt8) : sqlChCheckUserAuth allOk lib db user q =
      if q = pw then (id, .success) else (userIdInvalid, .wrongPassword) := by
  rw [checkUserAuth_eq, h]
  by_cases hq : q = pw
  · simp [hq]
  · have hne : hexedHash lib salt pw ≠ hexedHash lib salt q :=
      fun he => hq (hexedHash_inj hsha he).symm
    simp [hq, hne]

/-- What holds of logins and further registrations after the calls. -/
structure RegisterThenLogin (lib : Externals) (db : Database) (calls : List AddUserCall) :
    Prop where
  /-- With the password of the first registration, and no other. -/
  login : ∀ u q id, sqlChCheckUserAuth allOk lib (addUsers lib db calls) u q = (id, .success) ↔
    registration lib u db calls = some (q, id)
  row : ∀ u pw id, registration lib u db calls = some (pw, id) →
    ∃ row ∈ (addUsers lib db calls).users.rows, row.user = u ∧ row.id = id
  distinct : ∀ u v pw pw' id, registration lib u db calls = some (pw, id) →
    registration lib v db calls = some (pw', id) → u = v
  existing : ∀ c : AddUserCall, registration lib c.user db calls ≠ none →
    c.run lib (addUsers lib db calls) = (.userExists, addUsers lib db calls)
  unknown : ∀ u q, registration lib u db calls = none →
    sqlChCheckUserAuth allOk lib (addUsers lib db calls) u q = (userIdInvalid, .userNotFound)
  wrong : ∀ u q pw id, registration lib u db calls = some (pw, id) → q ≠ pw →
    sqlChCheckUserAuth allOk lib (addUsers lib db calls) u q = (userIdInvalid, .wrongPassword)

/-- After any registrations in an empty table. -/
theorem register_then_login (hname : ∀ a b, lib.nameEq a b = decide (a = b))
    (hsha : Function.Injective lib.sha256) (hempty : db.users.rows = [])
    (calls : List AddUserCall) : RegisterThenLogin lib db calls := by
  have hfound : ∀ {u pw id}, registration lib u db calls = some (pw, id) →
      ∃ salt, (addUsers lib db calls).users.byName lib u =
        some ⟨id, u, hexedHash lib salt pw, salt, 0⟩ := by
    intro u pw id hreg
    have hadds := addUsers_empty hname hempty calls u
    rwa [hreg] at hadds
  have hrow : ∀ {u pw id}, registration lib u db calls = some (pw, id) →
      ∃ row ∈ (addUsers lib db calls).users.rows, row.user = u ∧ row.id = id := by
    intro u pw id hreg
    obtain ⟨salt, hrow⟩ := hfound hreg
    exact ⟨_, (Users.byName_some hrow).1, rfl, rfl⟩
  have hunknown : ∀ u q, registration lib u db calls = none → sqlChCheckUserAuth allOk lib
      (addUsers lib db calls) u q = (userIdInvalid, .userNotFound) := by
    intro u q hreg
    have hadds := addUsers_empty hname hempty calls u
    rw [hreg] at hadds
    rw [checkUserAuth_eq, hadds]
  have hauth : ∀ u q pw id, registration lib u db calls = some (pw, id) →
      sqlChCheckUserAuth allOk lib (addUsers lib db calls) u q =
        if q = pw then (id, .success) else (userIdInvalid, .wrongPassword) := by
    intro u q pw id hreg
    obtain ⟨salt, hrow⟩ := hfound hreg
    exact checkUserAuth_registered hsha hrow q
  refine ⟨?_, fun u pw id => hrow, ?_, ?_, hunknown, ?_⟩
  · intro u q id
    cases hreg : registration lib u db calls with
    | none => simp [hunknown u q hreg]
    | some r =>
      obtain ⟨pw, id'⟩ := r
      rw [hauth u q pw id' hreg]
      by_cases hq : q = pw
      · simp [hq]
      · simp [hq, Ne.symm hq]
  · intro u v pw pw' id hu hv
    obtain ⟨row, hmem, hrowu, hid⟩ := hrow hu
    obtain ⟨row', hmem', hrowv, hid'⟩ := hrow hv
    rw [← hrowu, ← hrowv, Users.eq_of_id_eq hmem hmem' (hid.trans hid'.symm)]
  · intro c hreg
    obtain ⟨⟨pw, id⟩, hreg⟩ := Option.ne_none_iff_exists'.mp hreg
    obtain ⟨salt, hthere⟩ := hfound hreg
    rcases run_cases lib (addUsers lib db calls) c with ⟨_, hrun⟩ | ⟨hnone, _⟩ | ⟨hnone, _⟩
    · exact hrun
    · rw [hthere] at hnone; cases hnone
    · rw [hthere] at hnone; cases hnone
  · intro u q pw id hreg hq
    rw [hauth u q pw id hreg, if_neg hq]

/-! ### An account to log in to -/

/-- 32 zero bytes for a salt, and `pw` for a password. -/
def sampleCall (user : List UInt8) : AddUserCall := ⟨List.replicate 32 0, user, text "pw"⟩

/-- The SHA-256 digest of the salt's digits and the password. -/
def sampleDigest : List UInt8 :=
  [0x93, 0x28, 0xfc, 0x51, 0xcb, 0xdb, 0xf2, 0xde, 0x16, 0xdb, 0xfa, 0xdb, 0x55, 0x2b, 0x70, 0x92,
   0xa8, 0x2f, 0x53, 0xf2, 0xbe, 0xcf, 0x78, 0x72, 0xb1, 0x16, 0xe6, 0x4e, 0x05, 0x26, 0x21, 0x93]

def sampleInput : List UInt8 := ubytesToString (List.replicate 32 0) ++ text "pw"

/-- Right on the one input, and injective on all. -/
def sampleSha (input : List UInt8) : List UInt8 :=
  if input = sampleInput then sampleDigest else 0 :: input

theorem sampleSha_injective : Function.Injective sampleSha := by
  intro x y h
  simp only [sampleSha] at h
  split at h
  · split at h
    · next hx hy => rw [hx, hy]
    · simp [sampleDigest] at h
  · split at h
    · simp [sampleDigest] at h
    · exact List.cons_injective h

theorem register_then_login_twice :
    let lib : Externals := ⟨sampleSha, fun a b => decide (a = b)⟩
    let db := addUsers lib Database.empty [sampleCall [97], sampleCall [97], sampleCall [98]]
    sqlChCheckUserAuth allOk lib db [98] (text "pw") = (2, .success) ∧
      (sampleCall [97]).run lib db = (.userExists, db) := by
  intro lib db
  have hlaw : RegisterThenLogin lib Database.empty _ :=
    register_then_login (fun _ _ => rfl) sampleSha_injective rfl
      [sampleCall [97], sampleCall [97], sampleCall [98]]
  exact ⟨(hlaw.login [98] (text "pw") 2).mpr (by decide), hlaw.existing _ (by decide)⟩

end VhIM.Sql
