import VhIM.Server.Accounts
import VhIM.Server.Descriptors

/-! # What a grant decides

MSG_GRANT_PRIVILEGES writes the level into the table, as a byte. Who is online
keeps the level that was loaded at the first login, and `is_allowed` asks that
one. -/
namespace VhIM.Server
open VhIM.Lib VhIM.Lib.Runs VhIM.Network VhIM.Sql VhIM.Utility
open ServerState

def QueriesSucceed (e : Event) : Prop :=
  match e with
  | .accept _ _ => True
  | .packet _ env _ => ∀ call step, env.sqlOk call step = true
  | .hangup _ env => ∀ call step, env.sqlOk call step = true

/-- The kick that `data` asks for is carried out: its target was online and is
not any more, and all its connections have ended. -/
def KickCarriedOut (lib : Externals) (env : Env) (s : ServerState) (sc : ServerClient)
    (data : List UInt8) : Prop :=
  ∃ tuser t, s.getUserById (wireInt data 1) = some tuser ∧
    s.cbMsgRcv lib env sc.ssl.fd data = .ok t ∧ t.getUserById (wireInt data 1) = none ∧
    ∀ c ∈ tuser.connections, ¬ HasClient t c.fd

/-- As a grant of level `n` to `v` has it: so is the table, so is the level of
`v` online, and so are the kicks of `v` decided. -/
structure FollowsGrant (lib : Externals) (v n : Int32) (s : ServerState) : Prop where
  stored : ∀ row ∈ s.db.users.rows, row.id = v → (8 ≤ row.privilege ↔ 8 ≤ n)
  online : ∀ u ∈ s.users, u.id = v → (8 ≤ u.pLevel ↔ 8 ≤ n)
  kicks : ∀ env, ∀ sc ∈ s.clients, ∀ user data, s.userOf sc = some user → user.id = v →
    12 ≤ data.length → wireInt data 0 = MsgType.cmdKickId.code →
      (KickCarriedOut lib env s sc data ↔ 8 ≤ n ∧ (s.getUserById (wireInt data 1)).isSome)

/-- The byte that is stored is on the same side of 8 as the level granted, and
so is the level that the user has online already. -/
def GrantFits (v n : Int32) (s : ServerState) : Prop :=
  (8 ≤ n.toUInt32.toUInt8 ↔ 8 ≤ n) ∧ ∀ u ∈ s.users, u.id = v → (8 ≤ u.pLevel ↔ 8 ≤ n)

variable {lib : Externals} {env : Env} {s t : ServerState} {sc : ServerClient} {e : Event}
  {v n : Int32}

/-! ## Kicks -/

theorem disconnect_ok (hsc : sc ∈ s.clients) (env : Env) :
    ∃ t, s.serverChDisconnectClient env sc.ssl = .ok t ∧ Disconnected sc.ssl sc s t := by
  have hfound : s.clients.search sc.ssl.fd = some sc := OrderedSet.search_eq_some.mpr ⟨hsc, rfl⟩
  obtain ⟨t, ht⟩ : ∃ t, s.serverChDisconnectClient env sc.ssl = .ok t := by
    simp only [serverChDisconnectClient, serverChClientDisconnected, hfound]
    exact ⟨_, rfl⟩
  obtain ⟨sc', hd⟩ := disconnected_of_ok ht
  obtain rfl : sc' = sc := OrderedSet.eq_of_key_eq hd.mem hsc hd.fd
  exact ⟨t, ht, hd⟩

/-- `conns` are what is left of the connections of the user `tid`, who is online
as long as there are any. -/
structure KickTarget (tid : Int32) (conns : List Ssl) (s : ServerState) : Prop where
  positive : 0 < tid
  nodup : conns.Nodup
  clients : ∀ c ∈ conns, ∃ sc ∈ s.clients, sc.ssl = c ∧ sc.id = tid
  user : ∀ u ∈ s.users, u.id = tid → u.connections = conns ∧ conns ≠ []

theorem Owned.kickTarget {tuser : ServerUser} (h : Owned s) (htuser : tuser ∈ s.users) :
    KickTarget tuser.id tuser.connections s := by
  refine ⟨h.positive tuser htuser, (h.listed tuser htuser).2.1, h.owned tuser htuser, ?_⟩
  intro u hu hid
  rw [OrderedSet.eq_of_key_eq hu htuser (by rw [hid])]
  exact ⟨rfl, (h.listed tuser htuser).2.2⟩

/-- One turn of the loop. -/
theorem KickTarget.next {tid : Int32} {c : Ssl} {conns : List Ssl}
    (h : KickTarget tid (c :: conns) s) (env : Env) :
    ∃ sc m, s.serverChDisconnectClient env c = .ok m ∧ Disconnected c sc s m ∧
      sc.ssl = c ∧ sc.id = tid ∧ KickTarget tid conns m := by
  obtain ⟨hc, hrest⟩ := List.nodup_cons.mp h.nodup
  obtain ⟨sc, hsc, rfl, hscid⟩ := h.clients c List.mem_cons_self
  obtain ⟨m, hm, hd⟩ := disconnect_ok hsc env
  refine ⟨sc, m, hm, hd, rfl, hscid, h.positive, hrest, ?_, ?_⟩
  · intro c' hc'
    obtain ⟨sc', hsc', rfl, hid⟩ := h.clients c' (List.mem_cons_of_mem _ hc')
    refine ⟨sc', ?_, rfl, hid⟩
    rw [hd.clients, OrderedSet.mem_erase]
    refine ⟨hsc', ?_⟩
    intro hfd
    rw [OrderedSet.eq_of_key_eq hsc' hsc hfd] at hc'
    exact hc hc'
  · intro u hu hid
    rcases (hd.users u).mp hu with ⟨_, hno⟩ | ⟨w, hw, _, rfl, hne⟩
    · exact absurd ⟨hscid ▸ h.positive, hid.trans hscid.symm⟩ hno
    · rw [ServerUser.removeConnection_id] at hid
      rw [ServerUser.removeConnection_connections, (h.user w hw hid).1,
        List.erase_cons_head] at hne ⊢
      exact ⟨rfl, hne⟩

theorem freed_cbClDc (env : Env) (s : ServerState) (sc : ServerClient) :
    (s.cbClDc env sc).freed = s.freed := by
  rw [cbClDc_eq]
  split
  · rw [dropConnection]
    split <;> rfl
  · rfl

theorem freed_disconnect {ssl : Ssl} (h : s.serverChDisconnectClient env ssl = .ok t) :
    t.freed = s.freed ++ [ssl] := by
  simp only [serverChDisconnectClient, serverChClientDisconnected] at h
  cases hsc : s.clients.search ssl.fd with
  | none => rw [hsc] at h; cases h
  | some sc =>
    rw [hsc] at h
    cases h
    rw [← freed_cbClDc env s sc]

/-- The connections `conns` of the user `tid` have ended, and nothing else. -/
structure KickedExactly (tid : Int32) (conns : List Ssl) (s t : ServerState) : Prop where
  clients : ∀ sc, sc ∈ t.clients ↔ sc ∈ s.clients ∧ sc.ssl ∉ conns
  opened : ∀ d, d ∈ t.opened ↔ d ∈ s.opened ∧ d ∉ conns.map Ssl.fd
  freed : t.freed = s.freed ++ conns
  users : ∀ u, u ∈ t.users ↔ u ∈ s.users ∧ u.id ≠ tid

theorem KickedExactly.cons {m : ServerState} {conns : List Ssl}
    (hd : Disconnected sc.ssl sc s m) (hfreed : m.freed = s.freed ++ [sc.ssl])
    (h : KickedExactly sc.id conns m t) : KickedExactly sc.id (sc.ssl :: conns) s t := by
  refine ⟨?_, ?_, ?_, ?_⟩
  · intro sc'
    rw [h.clients, hd.clients, OrderedSet.mem_erase, List.mem_cons, not_or, and_assoc]
    refine and_congr_right fun hsc' => and_congr_left fun _ => not_congr ⟨fun hfd => ?_, ?_⟩
    · rw [OrderedSet.eq_of_key_eq hsc' hd.mem hfd]
    · intro he
      rw [he]
  · intro d
    rw [h.opened, hd.opened, Finset.mem_erase, List.map_cons, List.mem_cons, not_or]
    tauto
  · rw [h.freed, hfreed, List.append_assoc, List.singleton_append]
  · intro u
    rw [h.users, hd.users]
    constructor
    · rintro ⟨⟨hu, _⟩ | ⟨v, _, ⟨_, hid⟩, rfl, _⟩, hne⟩
      · exact ⟨hu, hne⟩
      · exact absurd ((ServerUser.removeConnection_id _ _).trans hid) hne
    · rintro ⟨hu, hne⟩
      exact ⟨.inl ⟨hu, fun he => hne he.2⟩, hne⟩

/-- The loop of the kick comes to its end, and with the last connection the
user goes. -/
theorem kickLoop_ends (env : Env) {tid : Int32} {conns : List Ssl} (h : KickTarget tid conns s) :
    ∃ t, s.kickLoop env conns = .ok t ∧ KickedExactly tid conns s t := by
  induction conns generalizing s with
  | nil =>
    refine ⟨s, rfl, by simp, by simp, by simp, fun u => ⟨fun hu => ⟨hu, ?_⟩, And.left⟩⟩
    exact fun hid => (h.user u hu hid).2 rfl
  | cons c conns ih =>
    obtain ⟨sc, m, hm, hd, rfl, rfl, hnext⟩ := h.next env
    obtain ⟨t, ht, hkicked⟩ := ih hnext
    refine ⟨t, ?_, hkicked.cons hd (freed_disconnect hm)⟩
    simp only [kickLoop, hm]
    exact ht

/-- Where the link that is read still names the next connection, the kick ends
the connections of the target, and nothing else. -/
theorem cmdKickId_ends {tid : Int32} {tuser : ServerUser} (ho : Owned s)
    (htuser : s.getUserById tid = some tuser) (env : Env) :
    ∃ t, s.cmdKickId env tid = .ok t ∧ KickedExactly tuser.id tuser.connections s t := by
  obtain ⟨hmem, hid⟩ := getUserById_eq_some.mp htuser
  have hsent : Owned (s.send (sendToUser env tuser
      (.broadcast (text "admin") (text "you got kicked, fggt!")))) := ho.same rfl fun _ hsc => hsc
  obtain ⟨t, ht, hkicked⟩ := kickLoop_ends env (hsent.kickTarget hmem)
  refine ⟨t, ?_, hkicked.clients, hkicked.opened, hkicked.freed, hkicked.users⟩
  simp only [cmdKickId, htuser]
  exact ht

/-- What comes of a kick request. -/
theorem cbMsgRcv_kick {user : ServerUser} {data : List UInt8} (hsc : sc ∈ s.clients)
    (hu : s.userOf sc = some user) (hlen : 12 ≤ data.length)
    (htype : wireInt data 0 = MsgType.cmdKickId.code) :
    s.cbMsgRcv lib env sc.ssl.fd data =
      if 8 ≤ user.pLevel then s.cmdKickId env (wireInt data 1) else .ok s := by
  rw [cbMsgRcv_of_authCase hsc hu (by omega), htype, MsgType.ofCode_code]
  by_cases hlevel : 8 ≤ user.pLevel
  · simp only [authCase, isAllowed, hlevel, decide_true, if_true]
    rw [Get.bind_eq (getInt_atInt (by omega))]
    cases s.cmdKickId env (wireInt data 1) <;> rfl
  · simp only [authCase, isAllowed, hlevel, decide_false, Bool.false_eq_true, if_false]
    rfl

/-- A kick request is carried out exactly if its sender has the level and its
target is online. -/
theorem kickCarriedOut_iff {user : ServerUser} {data : List UInt8} (h : Owned s)
    (hsc : sc ∈ s.clients) (hu : s.userOf sc = some user) (hlen : 12 ≤ data.length)
    (htype : wireInt data 0 = MsgType.cmdKickId.code) :
    KickCarriedOut lib env s sc data ↔
      8 ≤ user.pLevel ∧ (s.getUserById (wireInt data 1)).isSome := by
  rw [KickCarriedOut, cbMsgRcv_kick hsc hu hlen htype]
  constructor
  · rintro ⟨tuser, t, htid, ht, hgone, _⟩
    refine ⟨?_, by rw [htid]; rfl⟩
    by_contra hlow
    rw [if_neg hlow] at ht
    cases ht
    rw [htid] at hgone
    cases hgone
  · rintro ⟨hlevel, hsome⟩
    obtain ⟨tuser, htid⟩ := Option.isSome_iff_exists.mp hsome
    obtain ⟨htuser, hid⟩ := getUserById_eq_some.mp htid
    obtain ⟨t, ht, hkicked⟩ := cmdKickId_ends h htid env
    refine ⟨tuser, t, htid, ?_, ?_, ?_⟩
    · rw [if_pos hlevel]
      exact ht
    · exact getUserById_eq_none.mpr fun u hu he => ((hkicked.users u).mp hu).2 (he.trans hid.symm)
    · rintro c hc ⟨sc', hsc', hfd⟩
      obtain ⟨hold, hnot⟩ := (hkicked.clients sc').mp hsc'
      obtain ⟨sc₀, hsc₀, rfl, _⟩ := h.owned tuser htuser c hc
      exact hnot (OrderedSet.eq_of_key_eq hold hsc₀ hfd ▸ hc)

/-! ## The level after a grant -/

/-- Where the level of `v` is kept, in the table and online, it meets `A`. In the
table it is a byte, so that a login loads it as it is. -/
structure LevelsMeet (A : Nat → Prop) (v : Int32) (s : ServerState) : Prop where
  account : ∃ row ∈ s.db.users.rows, row.id = v
  stored : ∀ row ∈ s.db.users.rows, row.id = v → row.privilege < 256 ∧ A row.privilege
  online : ∀ u ∈ s.users, u.id = v → A u.pLevel.toNat

variable {A : Nat → Prop}

theorem sqlChLoadPrivileges_eq {ok : SqlStep → Bool} {db : Database} {row : UserRow}
    (hok : ∀ step, ok step = true) (h : row ∈ db.users.rows) :
    sqlChLoadPrivileges ok db row.id = UInt8.ofNat row.privilege := by
  simp [sqlChLoadPrivileges, hok, Users.byId_eq_some h]

theorem QueriesSucceed.stores (hok : QueriesSucceed e) (hgrant : Grants e s v n) : Stores e := by
  cases e with
  | packet fd env data => exact ⟨hok _ _, hok _ _⟩
  | _ => exact hgrant.elim

theorem byte_eq_iff : (n.toUInt32.toUInt8.toNat : Int) = n.toInt ↔ 0 ≤ n ∧ n < 256 := by
  rw [Int32.le_iff_toInt_le, Int32.lt_iff_toInt_lt]
  have hmod : n.toUInt32.toUInt8.toNat = n.toUInt32.toNat % 256 := UInt32.toNat_toUInt8 _
  have hcond : n.toInt = if 2 * n.toUInt32.toNat < 2 ^ 32 then (n.toUInt32.toNat : Int)
      else n.toUInt32.toNat - 2 ^ 32 := BitVec.toInt_eq_toNat_cond _
  have hlt := n.toUInt32.toNat_lt
  have hzero : (0 : Int32).toInt = 0 := rfl
  have hbyte : (256 : Int32).toInt = 256 := rfl
  rw [hmod, hcond, hzero, hbyte]
  split <;> omega

theorem levelsMeet_of_grant (hstep : ServerStep lib e s t) (hgrant : Grants e s v n)
    (hok : QueriesSucceed e) (haccount : ∃ row ∈ s.db.users.rows, row.id = v)
    (hbyte : A n.toUInt32.toUInt8.toNat) (honline : ∀ u ∈ s.users, u.id = v → A u.pLevel.toNat) :
    LevelsMeet A v t := by
  rw [grants_step hstep hgrant (hok.stores hgrant)]
  obtain ⟨row, hrow, hid⟩ := haccount
  refine ⟨⟨_, Users.mem_setPrivilege.mpr (.inr ⟨row, hrow, hid, rfl⟩), hid⟩, ?_, honline⟩
  intro row' hrow' hid'
  rcases Users.mem_setPrivilege.mp hrow' with ⟨_, hne⟩ | ⟨_, _, _, rfl⟩
  · exact absurd hid' hne
  · exact ⟨UInt8.toNat_lt _, hbyte⟩

/-- The other way round: what the table and whoever is online show of a grant. -/
theorem levels_of_grant (hstep : ServerStep lib e s t) (hgrant : Grants e s v n)
    (hok : QueriesSucceed e) (haccount : ∃ row ∈ s.db.users.rows, row.id = v)
    (hstored : ∀ row ∈ t.db.users.rows, row.id = v → A row.privilege)
    (honline : ∀ u ∈ t.users, u.id = v → A u.pLevel.toNat) :
    A n.toUInt32.toUInt8.toNat ∧ ∀ u ∈ s.users, u.id = v → A u.pLevel.toNat := by
  rw [grants_step hstep hgrant (hok.stores hgrant)] at hstored honline
  obtain ⟨row, hrow, hid⟩ := haccount
  exact ⟨hstored _ (Users.mem_setPrivilege.mpr (.inr ⟨row, hrow, hid, rfl⟩)) hid, honline⟩

/-- Until the next grant for `v` the level stays as it is, in the table and
online, in whatever order logins, logouts and other events come. -/
theorem levelsMeet_step (e : Event) (s t : ServerState) (h : LevelsMeet A v s)
    (hstep : guarded (ServerStep lib) (fun e s => QueriesSucceed e ∧ ∀ m, ¬ Grants e s v m) e s t) :
    LevelsMeet A v t := by
  obtain ⟨hstep, hok, hno⟩ := hstep
  obtain ⟨row, hrow, hid⟩ := h.account
  -- the account keeps its row
  have hkeep : row ∈ t.db.users.rows := by
    rcases accounts_of_step hstep with hdb | ⟨v', m, hgrant, _, hdb⟩ | ⟨user, pw, salt, hins⟩
    · rw [hdb]
      exact hrow
    · rw [hdb]
      refine Users.mem_setPrivilege.mpr (.inl ⟨hrow, ?_⟩)
      intro he
      rw [hid] at he
      exact hno m (he ▸ hgrant)
    · rw [Users.insert_rows hins]
      exact List.mem_append_left _ hrow
  obtain ⟨hlt, hmeets⟩ := h.stored row hrow hid
  refine ⟨⟨row, hkeep, hid⟩, ?_, ?_⟩
  · intro row' hrow' hid'
    obtain rfl : row' = row := Users.eq_of_id_eq hrow' hkeep (hid'.trans hid.symm)
    exact ⟨hlt, hmeets⟩
  · have hknew : ∀ u, Knew s u → u.id = v → A u.pLevel.toNat := by
      rintro u ⟨w, hw, hwid, _, hlevel⟩ huid
      rw [← hlevel]
      exact h.online w hw (hwid.trans huid)
    rcases knew_of_step hstep with hall | ⟨fd, env, data, new, rfl, hnew, hall⟩
    · exact fun u hu => hknew u (hall u hu)
    · intro u hu huid
      rcases hall u hu with hu | rfl
      · exact hknew u hu huid
      · cases hnew with
        | @login row' uname ssl hrow' =>
          obtain rfl : row' = row := Users.eq_of_id_eq hrow' hrow (huid.trans hid.symm)
          show A (sqlChLoadPrivileges (env.sqlOk .loadPrivileges) s.db row'.id).toNat
          rw [sqlChLoadPrivileges_eq (hok .loadPrivileges) hrow, UInt8.toNat_ofNat_of_lt' hlt]
          exact hmeets

theorem followsGrant_of_levelsMeet (h : LevelsMeet (fun p => 8 ≤ p ↔ 8 ≤ n) v s) (ho : Owned s) :
    FollowsGrant lib v n s := by
  refine ⟨fun row hrow hid => (h.stored row hrow hid).2, h.online, ?_⟩
  intro env sc hsc user data hu hid hlen htype
  have hside : 8 ≤ user.pLevel ↔ 8 ≤ n := h.online user (userOf_eq_some.mp hu).2.1 hid
  rw [kickCarriedOut_iff ho hsc hu hlen htype, hside]

/-- The level granted to `v` is the one stored and the one used. -/
structure AgreesWithGrant (v n : Int32) (s : ServerState) : Prop where
  stored : ∀ row ∈ s.db.users.rows, row.id = v → (row.privilege : Int) = n.toInt
  online : ∀ u ∈ s.users, u.id = v → (u.pLevel.toNat : Int) = n.toInt

/-- A level that is no byte is not stored, and who is online keeps another one:
otherwise the three levels are equal until the next grant. -/
theorem grant_agrees_iff (hstep : ServerStep lib e s t) (hgrant : Grants e s v n)
    (hok : QueriesSucceed e) (haccount : ∃ row ∈ s.db.users.rows, row.id = v) :
    (∀ later r, Run (guarded (ServerStep lib) fun e s =>
      QueriesSucceed e ∧ ∀ m, ¬ Grants e s v m) t later r → AgreesWithGrant v n r) ↔
    (0 ≤ n ∧ n < 256) ∧ ∀ u ∈ s.users, u.id = v → (u.pLevel.toNat : Int) = n.toInt := by
  rw [← byte_eq_iff]
  constructor
  · intro h
    have hnow := h [] t (.nil t)
    exact levels_of_grant (A := fun p => (p : Int) = n.toInt) hstep hgrant hok haccount hnow.stored
      hnow.online
  · rintro ⟨hbyte, honline⟩ later r hlater
    have hmeets := hlater.invariant levelsMeet_step (levelsMeet_of_grant
      (A := fun p => (p : Int) = n.toInt) hstep hgrant hok haccount hbyte honline)
    exact ⟨fun row hrow hid => (hmeets.stored row hrow hid).2, hmeets.online⟩

/-- A grant for an account decides everything until the next one for it,
exactly if the byte stored and the level its user has online are on the side of
8 that the level granted is on. -/
theorem grant_decides_iff {db : Database} {listener : Nat} {events : List Event}
    (hrun : Run (ServerStep lib) (ServerState.start db listener) events s)
    (hstep : ServerStep lib e s t) (hgrant : Grants e s v n) (hok : QueriesSucceed e)
    (haccount : ∃ row ∈ s.db.users.rows, row.id = v) :
    (∀ later r, Run (guarded (ServerStep lib) fun e s =>
      QueriesSucceed e ∧ ∀ m, ¬ Grants e s v m) t later r → FollowsGrant lib v n r) ↔
    GrantFits v n s := by
  constructor
  · intro h
    have hnow := h [] t (.nil t)
    exact levels_of_grant (A := fun p => 8 ≤ p ↔ 8 ≤ n) hstep hgrant hok haccount hnow.stored
      hnow.online
  · rintro ⟨hbyte, honline⟩ later r hlater
    have hmeets := levelsMeet_of_grant (A := fun p => 8 ≤ p ↔ 8 ≤ n) hstep hgrant hok haccount
      hbyte honline
    have howned := owned_step _ _ _ (hrun.invariant owned_step (owned_start db listener)) hstep
    refine followsGrant_of_levelsMeet (hlater.invariant levelsMeet_step hmeets) ?_
    exact hlater.invariant (fun e s t hs hstep => owned_step e s t hs hstep.1) howned

/-- A level granted to an account of which nobody is online. -/
theorem grant_decides_offline : ∃ s t,
    Run (ServerStep sampleExt) (ServerState.start (sampleDb 8) 3)
      [.accept ⟨1, 4⟩ true, .accept ⟨2, 5⟩ true, .packet 4 sampleEnv (loginOf [97])] s ∧
    ServerStep sampleExt
      (.packet 4 sampleEnv (packetOf .grantPrivileges [.int 2, .int 8])) s t ∧
    ∀ later r, Run (guarded (ServerStep sampleExt) fun e s =>
      QueriesSucceed e ∧ ∀ m, ¬ Grants e s 2 m) t later r → FollowsGrant sampleExt 2 8 r := by
  obtain ⟨hfirst, hsecond⟩ := twoClients_steps sampleExt (sampleDb 8)
  have hlogin : ServerStep sampleExt (.packet 4 sampleEnv (loginOf [97])) (twoClients (sampleDb 8))
      ((twoClients (sampleDb 8)).reqLogin sampleExt sampleEnv ⟨1, 4⟩ [97] []) := .packet rfl
  have hrun := Run.cons hfirst (.cons hsecond (.single hlogin))
  have hgrant : ServerStep sampleExt
      (.packet 4 sampleEnv (packetOf .grantPrivileges [.int 2, .int 8]))
      ((twoClients (sampleDb 8)).reqLogin sampleExt sampleEnv ⟨1, 4⟩ [97] []) _ := .packet rfl
  refine ⟨_, _, hrun, hgrant, (grant_decides_iff hrun hgrant ?_ ?_ ?_).mpr ?_⟩
  · exact ⟨⟨⟨1, ⟨1, 4⟩⟩, .head _, rfl, rfl⟩, rfl, rfl, rfl⟩
  · exact fun _ _ => rfl
  · exact ⟨_, .tail _ (.head _), rfl⟩
  · exact ⟨by decide, by decide⟩

/-- A level granted to a user who is online: with every query succeeding the
kick that asks for it is refused. -/
theorem grant_online_refused : ∃ t,
    Run (ServerStep sampleExt) (ServerState.start (sampleDb 8) 3)
      [.accept ⟨1, 4⟩ true, .accept ⟨2, 5⟩ true, .packet 4 sampleEnv (loginOf [97]),
        .packet 5 sampleEnv (loginOf [98]),
        .packet 4 sampleEnv (packetOf .grantPrivileges [.int 2, .int 8])] t ∧
    (⟨2, ⟨2, 5⟩⟩ : ServerClient) ∈ t.clients ∧ (t.getUserById 1).isSome ∧
    t.cbMsgRcv sampleExt sampleEnv 5 (packetOf .cmdKickId [.int 1]) = .ok t ∧
    ¬ KickCarriedOut sampleExt sampleEnv t ⟨2, ⟨2, 5⟩⟩ (packetOf .cmdKickId [.int 1]) := by
  have hgrant : ServerStep sampleExt
      (.packet 4 sampleEnv (packetOf .grantPrivileges [.int 2, .int 8])) twoUsers _ := .packet rfl
  refine ⟨_, run_twoUsers.append (.single hgrant), .tail _ (.head _), rfl, rfl, ?_⟩
  rintro ⟨tuser, r, _, hr, hgone, _⟩
  cases hr
  cases hgone

end VhIM.Server
