import VhIM.Lib.FanOut
import VhIM.Server.Sessions

/-! # Delivery

What each connection gets of what a handler sends. The lists of connections
are walked without a look at who is in them twice; that nobody is follows from
the sessions. -/
namespace VhIM.Server
open VhIM.Lib VhIM.Network VhIM.Sql VhIM.Utility
open ServerState

/-- No connection is listed twice, by one user or by two. -/
structure Routable (s : ServerState) : Prop where
  nodup : ∀ u ∈ s.users, u.connections.Nodup
  apart : ∀ u ∈ s.users, ∀ v ∈ s.users, ∀ c ∈ u.connections, c ∈ v.connections → u = v
  known : ∀ u ∈ s.users, ∃ row ∈ s.db.users.rows, row.id = u.id

def Connected (s : ServerState) (c : Ssl) : Prop := ∃ u ∈ s.users, c ∈ u.connections

def FriendConnected (s : ServerState) (uid : Int32) (c : Ssl) : Prop :=
  ∃ f ∈ s.users, (uid, f.id) ∈ s.db.friends ∧ c ∈ f.connections

instance decidableConnected (s : ServerState) (c : Ssl) : Decidable (Connected s c) :=
  inferInstanceAs (Decidable (∃ u ∈ s.users, _))

instance decidableFriendConnected (s : ServerState) (uid : Int32) (c : Ssl) :
    Decidable (FriendConnected s uid c) :=
  inferInstanceAs (Decidable (∃ f ∈ s.users, _))

variable {env : Env} {s : ServerState} {c ssl : Ssl} {user : ServerUser}

theorem Sessions.routable (h : Sessions s) : Routable s := by
  refine ⟨fun u hu => (h.listed u hu).2.1, ?_, ?_⟩
  · intro u hu v hv c hcu hcv
    obtain ⟨sc, hsc, hssl, hid⟩ := h.owned u hu c hcu
    obtain ⟨sc', hsc', hssl', hid'⟩ := h.owned v hv c hcv
    have he := OrderedSet.eq_of_key_eq hsc hsc' (by rw [hssl, hssl'])
    exact OrderedSet.eq_of_key_eq hu hv (by rw [← hid, ← hid', he])
  · intro u hu
    obtain ⟨row, hrow, hid, _⟩ := h.known u hu
    exact ⟨row, hrow, hid⟩

/-! ## One user, every user -/

theorem mem_sendToAll {m : ServerMsg} {data : List UInt8} : (c, data) ∈ s.sendToAll env ssl m ↔
    (Connected s c ∧ c.fd ≠ ssl.fd) ∧ data = packet env m := by
  simp only [sendToAll, List.mem_flatMap, List.mem_map, List.mem_filter, decide_eq_true_eq,
    Prod.mk.injEq, Connected]
  constructor
  · rintro ⟨u, hu, _, ⟨hc, hfd⟩, rfl, rfl⟩
    exact ⟨⟨⟨u, hu, hc⟩, hfd⟩, rfl⟩
  · rintro ⟨⟨⟨u, hu, hc⟩, hfd⟩, rfl⟩
    exact ⟨u, hu, c, ⟨hc, hfd⟩, rfl, rfl⟩

theorem mem_sendToUser {m : ServerMsg} {data : List UInt8} :
    (c, data) ∈ sendToUser env (some user) m ↔ c ∈ user.connections ∧ data = packet env m := by
  simp only [sendToUser, sendDataToUser, List.mem_map, Prod.mk.injEq]
  constructor
  · rintro ⟨_, hc, rfl, rfl⟩
    exact ⟨hc, rfl⟩
  · rintro ⟨hc, rfl⟩
    exact ⟨c, hc, rfl, rfl⟩

/-- Every connection of one user, once. -/
theorem inbox_sendToUser (h : Routable s) (huser : user ∈ s.users) (m : ServerMsg) :
    inbox c (sendToUser env (some user) m) =
      if c ∈ user.connections then [packet env m] else [] :=
  inbox_group (h.nodup user huser) _

/-- Every connection of every user, once, but those of the descriptor it is from. -/
theorem inbox_sendToAll (h : Routable s) (m : ServerMsg) :
    inbox c (s.sendToAll env ssl m) =
      if Connected s c ∧ c.fd ≠ ssl.fd then [packet env m] else [] := by
  rw [sendToAll, inbox_fanOut s.users.nodup_elems (fun u hu => (h.nodup u hu).filter _)
    fun u hu v hv hcu hcv => h.apart u hu v hv c (List.mem_of_mem_filter hcu)
      (List.mem_of_mem_filter hcv)]
  refine if_congr ?_ rfl rfl
  simp only [List.mem_filter, decide_eq_true_eq, ne_eq, Connected]
  constructor
  · rintro ⟨u, hu, hc, hfd⟩
    exact ⟨⟨u, hu, hc⟩, hfd⟩
  · rintro ⟨⟨u, hu, hc⟩, hfd⟩
    exact ⟨u, hu, hc, hfd⟩

/-! ## Friends -/

/-- A query by id finds the one row there is. -/
theorem filter_id_eq (us : Users) (id : Int32) :
    us.rows.filter (fun r => r.id = id) = (us.byId id).toList := by
  have hnodup := us.nodup
  rw [Users.byId]
  generalize us.rows = rows at hnodup
  induction rows with
  | nil => rfl
  | cons r rows ih =>
    obtain ⟨hr, hrows⟩ := List.nodup_cons.mp hnodup
    by_cases hid : r.id = id
    · have hno : ∀ r' ∈ rows, r'.id ≠ id := fun r' hr' he =>
        hr (hid.trans he.symm ▸ List.mem_map_of_mem hr')
      have hnil : rows.filter (fun r => r.id = id) = [] := by simpa using hno
      rw [List.filter_cons_of_pos (by simpa using hid), List.find?_cons_of_pos (by simpa using hid),
        hnil]
      rfl
    · rw [List.filter_cons_of_neg (by simpa using hid), List.find?_cons_of_neg (by simpa using hid),
        ih hrows]

theorem fetchRows_ok {α : Type} {ok : SqlStep → Bool} (hok : ∀ step, ok step = true) (k : Nat)
    (rows : List α) : fetchRows ok k rows = rows := by
  induction rows generalizing k with
  | nil => rfl
  | cons row rows ih => rw [fetchRows, hok, if_pos rfl, ih]

/-- Whom the friend query reports when it does not fail: each friend once who
has an account. -/
theorem sqlChGetFriends_ids {ok : SqlStep → Bool} {db : Database} (hok : ∀ step, ok step = true)
    (hfriends : db.friends.Nodup) (uid : Int32) :
    let ids := (sqlChGetFriends ok db uid Vstack.create).2.drain.map ServerUserInfo.id
    ids.Nodup ∧ ∀ id, id ∈ ids ↔ (uid, id) ∈ db.friends ∧ ∃ row ∈ db.users.rows, row.id = id := by
  intro ids
  let friends := (db.friends.filter fun row => row.1 = uid).map Prod.snd
  have hmap : ∀ l, (joinUsers db l).map ServerUserInfo.id =
      l.filter fun id => (db.users.byId id).isSome := by
    intro l
    induction l with
    | nil => rfl
    | cons id l ih =>
      have hcons : joinUsers db (id :: l) =
          ((db.users.rows.filter fun r => r.id = id).map fun r => ⟨id, r.user⟩) ++
            joinUsers db l := by simp [joinUsers]
      rw [hcons, filter_id_eq, List.map_append, ih]
      cases hrow : db.users.byId id <;> simp [hrow]
  have hids : ids = (friends.filter fun id => (db.users.byId id).isSome).reverse := by
    have hheld := Vstack.pushAll_holds Vstack.create_holds (joinUsers db friends)
    show (sqlChGetFriends ok db uid Vstack.create).2.drain.map _ = _
    simp only [sqlChGetFriends, hok, Bool.not_true, Bool.false_eq_true, if_false, fetchRows_ok hok]
    rw [Vstack.drain_holds hheld, List.nil_append, List.map_reverse, hmap]
  have hnodup : friends.Nodup := by
    refine List.Nodup.map_on ?_ (hfriends.filter _)
    intro x hx y hy he
    simp only [List.mem_filter, decide_eq_true_eq] at hx hy
    exact Prod.ext (hx.2.trans hy.2.symm) he
  rw [hids]
  refine ⟨List.nodup_reverse.mpr (hnodup.filter _), ?_⟩
  intro id
  have hrow : (db.users.byId id).isSome ↔ ∃ row ∈ db.users.rows, row.id = id := by
    simp [Users.byId, List.find?_isSome]
  simp [friends, hrow]

theorem inbox_sendToFriends (h : Routable s) (hok : ∀ step, env.sqlOk .getFriends step = true)
    (hfriends : s.db.friends.Nodup) (m : ServerMsg) :
    inbox c (s.sendToFriends env user m) =
      if FriendConnected s user.id c then [packet env m] else [] := by
  obtain ⟨hnodup, hmem⟩ := sqlChGetFriends_ids hok hfriends user.id
  -- one group for each friend: the connections of the user, if there is one
  let group := fun id : Int32 => (s.getUserById id).elim [] ServerUser.connections
  have hgroup : ∀ {id : Int32} {c : Ssl}, c ∈ group id ↔
      ∃ f ∈ s.users, f.id = id ∧ c ∈ f.connections := by
    intro id c
    cases hu : s.getUserById id with
    | none =>
      have hno := getUserById_eq_none.mp hu
      simp only [group, hu, Option.elim_none, List.not_mem_nil, false_iff]
      rintro ⟨f, hf, hid, _⟩
      exact hno f hf hid
    | some f =>
      obtain ⟨hf, hid⟩ := getUserById_eq_some.mp hu
      simp only [group, hu, Option.elim_some]
      constructor
      · exact fun hc => ⟨f, hf, hid, hc⟩
      · rintro ⟨f', hf', hid', hc⟩
        rwa [OrderedSet.eq_of_key_eq hf' hf (by rw [hid, hid'])] at hc
  have hsends : s.sendToFriends env user m =
      (((sqlChGetFriends (env.sqlOk .getFriends) s.db user.id Vstack.create).2.drain.map
        ServerUserInfo.id).flatMap fun id => (group id).map fun c => (c, packet env m)) := by
    rw [sendToFriends, List.flatMap_map]
    refine List.flatMap_congr fun info _ => ?_
    cases hu : s.getUserById info.id <;> simp [group, hu, sendDataToUser]
  rw [hsends, inbox_fanOut hnodup]
  · refine if_congr ?_ rfl rfl
    constructor
    · rintro ⟨id, hid, hc⟩
      obtain ⟨f, hf, rfl, hcf⟩ := hgroup.mp hc
      exact ⟨f, hf, ((hmem f.id).mp hid).1, hcf⟩
    · rintro ⟨f, hf, hrow, hc⟩
      exact ⟨f.id, (hmem f.id).mpr ⟨hrow, h.known f hf⟩, hgroup.mpr ⟨f, hf, rfl, hc⟩⟩
  · intro id _
    cases hu : s.getUserById id with
    | none => simp [group, hu]
    | some f =>
      simp only [group, hu, Option.elim_some]
      exact h.nodup f (getUserById_eq_some.mp hu).1
  · intro i _ j _ hci hcj
    obtain ⟨f, hf, rfl, hc⟩ := hgroup.mp hci
    obtain ⟨f', hf', rfl, hc'⟩ := hgroup.mp hcj
    rw [h.apart f hf f' hf' c hc hc']

end VhIM.Server
