import VhIM.Sql.Friendship

/-! # What the writing calls report

The four functions of the store that write, with the steps each of them
issues. A status code is faithful when a failed step is reported as one and
success means that the tables have changed as intended; the friendship of two
users is atomic when it is made whole or not at all. -/
namespace VhIM.Sql
open VhIM.Utility

/-- A call of a function that writes, with its arguments. -/
inductive StoreCall where
  | addUser (saltBytes user pw : List UInt8)
  | createFriendRequest (uidFrom uidTo : Int32)
  | createFriends (uid1 uid2 : Int32)
  | deleteFriends (uid1 uid2 : Int32)

namespace StoreCall

variable (ok : SqlStep → Bool) (lib : Externals) (db : Database)

def run : StoreCall → Sqlv × Database
  | addUser salt user pw => sqlChAddUser ok lib salt db user pw
  | createFriendRequest f t => sqlChCreateFriendRequest ok db f t
  | createFriends a b => sqlChCreateFriends ok db a b
  | deleteFriends a b => sqlChDeleteFriends ok db a b

def issue (step : SqlStep) (rest : List SqlStep) : List SqlStep :=
  step :: if ok step then rest else []

def issued : StoreCall → List SqlStep
  | addUser _ user _ =>
    issue ok .connect <| issue ok (.query 0) <| issue ok (.fetch 0) <|
      if (db.users.byName lib user).isSome then [] else issue ok (.query 1) []
  | createFriendRequest f t =>
    issue ok .connect <| issue ok (.query 0) <| issue ok (.fetch 0) <|
      if (f, t) ∈ db.friendRequests then []
      else
        issue ok (.query 1) <| issue ok (.fetch 1) <|
          if (t, f) ∈ db.friendRequests then [] else issue ok (.query 2) []
  | createFriends _ _ =>
    issue ok .connect <| issue ok (.query 0) <| issue ok (.query 1) <| issue ok (.query 2) []
  | deleteFriends _ _ =>
    issue ok .connect <| issue ok (.query 0) <| issue ok (.fetch 0) <| issue ok (.query 1) []

/-- The tables once the call has done what it is for. -/
def Intended (db' : Database) : StoreCall → Prop
  | addUser salt user pw => ∃ users id, db' = { db with users := users } ∧
      users.rows = db.users.rows ++
        [⟨id, user, hexedHash lib (ubytesToString salt) pw, ubytesToString salt, 0⟩]
  | createFriendRequest f t =>
    db' = { db with friendRequests := db.friendRequests ++ [(f, t)] }
  | createFriends a b =>
    db' = { db with
      friends := db.friends ++ [(a, b)] ++ [(b, a)]
      friendRequests := db.friendRequests.filter (!between a b ·) }
  | deleteFriends a b =>
    db' = { db with friendRequests := db.friendRequests.filter (!between a b ·) }

/-- The status code of `r` tells what became of `steps`, and success means
that the tables meet `Q`. -/
structure Reports (steps : List SqlStep) (Q : Database → Prop) (r : Sqlv × Database) : Prop where
  failed : (∃ step ∈ steps, ok step = false) → r.1 = .connectionError
  success : r.1 = .success → (∀ step ∈ steps, ok step = true) ∧ Q r.2

def Faithful (call : StoreCall) : Prop :=
  Reports ok (call.issued ok lib db) (fun db' => call.Intended lib db db') (call.run ok lib db)

/-- The exits that leave the code as it was are not taken. -/
def SetsResult : StoreCall → Prop
  | createFriendRequest f t => ok .connect = true → ok (.query 0) = true ∧
      ok (.fetch 0) = true ∧ ((f, t) ∉ db.friendRequests → ok (.query 1) = true)
  | deleteFriends _ _ => ok .connect = true → ok (.query 0) = true
  | addUser _ _ _ | createFriends _ _ => True

variable {ok lib db}

theorem reports_nil {Q : Database → Prop} {r : Sqlv × Database} :
    Reports ok [] Q r ↔ (r.1 = .success → Q r.2) := by
  constructor
  · intro h hr
    exact (h.success hr).2
  · intro h
    exact ⟨by simp, fun hr => ⟨by simp, h hr⟩⟩

/-- A step with its exit: the exit reports the failure, and what comes after
reports the rest. -/
theorem reports_issue {Q : Database → Prop} {step : SqlStep} {rest : List SqlStep}
    {exit next : Sqlv × Database} :
    Reports ok (issue ok step rest) Q (if !ok step then exit else next) ↔
      (ok step = false → exit.1 = .connectionError) ∧
        (ok step = true → Reports ok rest Q next) := by
  unfold issue
  cases hstep : ok step with
  | false =>
    constructor
    · intro h
      exact ⟨fun _ => h.failed ⟨step, .head _, hstep⟩, fun he => absurd he (by decide)⟩
    · intro h
      have hexit : exit.1 = .connectionError := h.1 rfl
      refine ⟨fun _ => hexit, fun hr => ?_⟩
      have hr : exit.1 = .success := hr
      rw [hexit] at hr
      cases hr
  | true =>
    have hfailed : (∃ x ∈ step :: rest, ok x = false) ↔ ∃ x ∈ rest, ok x = false := by
      simp [hstep]
    have hall : (∀ x ∈ step :: rest, ok x = true) ↔ ∀ x ∈ rest, ok x = true := by
      simp [hstep]
    constructor
    · intro h
      refine ⟨fun he => absurd he (by decide), fun _ => ⟨fun hx => h.failed (hfailed.mpr hx), ?_⟩⟩
      intro hr
      exact ⟨hall.mp (h.success hr).1, (h.success hr).2⟩
    · intro h
      have h := h.2 rfl
      refine ⟨fun hx => h.failed (hfailed.mp hx), fun hr => ?_⟩
      exact ⟨hall.mpr (h.success hr).1, (h.success hr).2⟩

theorem addUser_faithful (salt user pw : List UInt8) :
    (addUser salt user pw).Faithful ok lib db := by
  unfold Faithful issued run sqlChAddUser
  refine reports_issue.mpr ⟨fun _ => rfl, fun _ => ?_⟩
  refine reports_issue.mpr ⟨fun _ => rfl, fun _ => ?_⟩
  refine reports_issue.mpr ⟨fun _ => rfl, fun _ => ?_⟩
  split
  · exact reports_nil.mpr (by simp)
  · refine reports_issue.mpr ⟨fun _ => rfl, fun _ => reports_nil.mpr ?_⟩
    split
    · next users hins =>
      intro _
      exact ⟨users, _, rfl, Users.insert_rows hins⟩
    · simp

theorem createFriendRequest_faithful (f t : Int32) :
    (createFriendRequest f t).Faithful ok lib db ↔
      (createFriendRequest f t).SetsResult ok db := by
  unfold Faithful issued run sqlChCreateFriendRequest SetsResult
  by_cases hthere : (f, t) ∈ db.friendRequests
  · simp only [reports_issue, hthere, if_true, reports_nil]
    simp
    tauto
  · by_cases hback : (t, f) ∈ db.friendRequests
    · simp only [reports_issue, hthere, hback, if_false, if_true, reports_nil]
      simp
      tauto
    · simp only [reports_issue, hthere, hback, if_false, reports_nil]
      simp [Intended]
      tauto

theorem createFriends_faithful (a b : Int32) : (createFriends a b).Faithful ok lib db := by
  unfold Faithful issued run sqlChCreateFriends
  simp only [reports_issue, reports_nil]
  simp [Intended]

theorem deleteFriends_faithful (a b : Int32) :
    (deleteFriends a b).Faithful ok lib db ↔ (deleteFriends a b).SetsResult ok db := by
  unfold Faithful issued run sqlChDeleteFriends SetsResult
  by_cases hfriends : (a, b) ∈ db.friends
  · simp only [reports_issue, hfriends, if_true, reports_nil]
    simp
  · simp only [reports_issue, hfriends, if_false, reports_nil]
    simp [Intended]

/-- The call reports what happened exactly when no exit that leaves the code
as it was is taken. -/
theorem faithful_iff (call : StoreCall) :
    call.Faithful ok lib db ↔ call.SetsResult ok db := by
  cases call with
  | addUser salt user pw => exact iff_of_true (addUser_faithful salt user pw) trivial
  | createFriendRequest f t => exact createFriendRequest_faithful f t
  | createFriends a b => exact iff_of_true (createFriends_faithful a b) trivial
  | deleteFriends a b => exact deleteFriends_faithful a b

/-- The first query of an unfriending fails and success is returned. -/
theorem not_faithful_deleteFriends :
    ¬ (deleteFriends 1 2).Faithful (fun step => step ≠ .query 0) ⟨id, fun _ _ => false⟩ .empty := by
  intro h
  have hcode := h.failed ⟨.query 0, by decide, by decide⟩
  exact absurd hcode (by decide)

end StoreCall

/-! ## A friendship is made whole or not at all -/

/-- Every row of `friends` is there in both directions. -/
def Database.SymmFriends (db : Database) : Prop :=
  ∀ a b, (a, b) ∈ db.friends → (b, a) ∈ db.friends

/-- `r` is the result of making `a` and `b` friends in one piece. -/
structure Atomic (db : Database) (a b : Int32) (r : Sqlv × Database) : Prop where
  success : r.1 = .success → r.2.friends = db.friends ++ [(a, b)] ++ [(b, a)] ∧
    ∀ row ∈ r.2.friendRequests, between a b row = false
  failure : r.1 ≠ .success →
    r.2.friends = db.friends ∧ r.2.friendRequests = db.friendRequests
  symm : db.SymmFriends → r.2.SymmFriends

/-- The first statement that fails, if one does, is the connection or the
first insertion. -/
def FailsEarly (ok : SqlStep → Bool) : Prop :=
  ok .connect = true → ok (.query 0) = true → ok (.query 1) = true ∧ ok (.query 2) = true

variable {ok : SqlStep → Bool} {db : Database} {a b : Int32}

theorem symmFriends_add (h : db.SymmFriends) {db' : Database}
    (hdb : db'.friends = db.friends ++ [(a, b)] ++ [(b, a)]) : db'.SymmFriends := by
  intro x y hxy
  rw [hdb] at hxy ⊢
  simp only [List.mem_append, List.mem_singleton, Prod.mk.injEq] at hxy ⊢
  rcases hxy with (hxy | ⟨rfl, rfl⟩) | ⟨rfl, rfl⟩
  · exact .inl (.inl (h x y hxy))
  · exact .inr ⟨rfl, rfl⟩
  · exact .inl (.inr ⟨rfl, rfl⟩)

theorem sqlChCreateFriends_atomic :
    Atomic db a b (sqlChCreateFriends ok db a b) ↔ FailsEarly ok := by
  constructor
  · intro h hconnect hquery
    have hfailure := h.failure
    cases h1 : ok (.query 1) with
    | false => simp [sqlChCreateFriends, hconnect, hquery, h1] at hfailure
    | true =>
      cases h2 : ok (.query 2) with
      | false => simp [sqlChCreateFriends, hconnect, hquery, h1, h2] at hfailure
      | true => exact ⟨rfl, rfl⟩
  · intro h
    cases hconnect : ok .connect with
    | false =>
      simp only [sqlChCreateFriends, hconnect, Bool.not_false, if_true]
      exact ⟨by simp, fun _ => ⟨rfl, rfl⟩, id⟩
    | true =>
      cases hquery : ok (.query 0) with
      | false =>
        simp only [sqlChCreateFriends, hconnect, hquery, Bool.not_true, Bool.not_false, if_true,
          Bool.false_eq_true, if_false]
        exact ⟨by simp, fun _ => ⟨rfl, rfl⟩, id⟩
      | true =>
        obtain ⟨h1, h2⟩ := h hconnect hquery
        simp only [sqlChCreateFriends, hconnect, hquery, h1, h2, Bool.not_true,
          Bool.false_eq_true, if_false]
        refine ⟨fun _ => ⟨rfl, ?_⟩, fun h => absurd rfl h, fun hsymm => symmFriends_add hsymm rfl⟩
        intro row hrow
        simpa using (List.mem_filter.mp hrow).2

/-- The second insertion fails: half a friendship is left. -/
theorem not_atomic_half :
    ¬ Atomic .empty 1 2 (sqlChCreateFriends (fun step => step ≠ .query 1) .empty 1 2) := by
  intro h
  exact absurd (h.failure (by decide)).1 (by decide)

end VhIM.Sql
