import VhIM.Server.Accounts

/-! # Privileges

Levels of 8 and more may kick and grant. Who has no such level gets none by
registering, logging in, or any message but one: MSG_GRANT_PRIVILEGES is the
command that `is_allowed` knows and that its handler does not ask it about. -/
namespace VhIM.Server
open VhIM.Lib VhIM.Lib.Runs VhIM.Network VhIM.Sql
open ServerState

/-- No account has a level of 8, and nobody online. -/
structure Unprivileged (s : ServerState) : Prop where
  stored : ∀ row ∈ s.db.users.rows, row.privilege < 8
  online : ∀ u ∈ s.users, u.pLevel < 8

/-- A grant of 8 or more, as the byte that is stored, from somebody logged in
and for an account that exists, whose query succeeds. -/
def Escalates (e : Event) (s : ServerState) : Prop :=
  match e with
  | .packet fd env data => ∃ sc ∈ s.clients, sc.ssl.fd = fd ∧ (s.userOf sc).isSome ∧
      wireInt data 0 = MsgType.grantPrivileges.code ∧
      8 ≤ (wireInt data 2).toUInt32.toUInt8 ∧
      (∃ row ∈ s.db.users.rows, row.id = wireInt data 1) ∧
      env.sqlOk .updatePrivileges .connect = true ∧ env.sqlOk .updatePrivileges (.query 0) = true
  | _ => False

def KickCloses (e : Event) (s t : ServerState) : Prop :=
  match e with
  | .packet _ _ data => wireInt data 0 = MsgType.cmdKickId.code ∧
      (t.clients ≠ s.clients ∨ t.master ≠ s.master ∨ t.opened ≠ s.opened)
  | _ => False

variable {lib : Externals} {env : Env} {s t : ServerState} {sc : ServerClient}

/-- A level below 8 in the table is below 8 in the byte it is loaded to. -/
theorem sqlChLoadPrivileges_lt {db : Database} (h : ∀ row ∈ db.users.rows, row.privilege < 8)
    (ok : SqlStep → Bool) (uid : Int32) : sqlChLoadPrivileges ok db uid < 8 := by
  simp only [sqlChLoadPrivileges]
  split_ifs
  · decide
  · decide
  · cases hrow : db.users.byId uid with
    | none => decide
    | some row =>
      have hlt := h row (List.mem_of_find?_eq_some hrow)
      show UInt8.ofNat row.privilege < 8
      have hbyte : (UInt8.ofNat row.privilege).toNat = row.privilege :=
        UInt8.toNat_ofNat_of_lt' (hlt.trans (by decide))
      rw [UInt8.lt_iff_toNat_lt, hbyte]
      exact hlt
  · decide

theorem not_isAllowed {priv : UInt8} (h : priv < 8) (cmd : MsgType) :
    isAllowed priv cmd = false := by
  have hle : ¬ 8 ≤ priv := UInt8.not_le.mpr h
  cases cmd <;> simp [isAllowed, hle]

theorem escalates_iff {e : Event} : Escalates e s ↔ ∃ v n, Grants e s v n ∧ Stores e ∧
    8 ≤ n.toUInt32.toUInt8 ∧ ∃ row ∈ s.db.users.rows, row.id = v := by
  constructor
  · intro h
    cases e with
    | packet fd env data =>
      obtain ⟨sc, hsc, hfd, huser, htype, hlevel, hrow, hstores⟩ := h
      exact ⟨_, _, ⟨⟨sc, hsc, hfd, huser⟩, htype, rfl, rfl⟩, hstores, hlevel, hrow⟩
    | _ => exact h.elim
  · rintro ⟨v, n, hgrant, hstores, hlevel, hrow⟩
    cases e with
    | packet fd env data =>
      obtain ⟨⟨sc, hsc, hfd, huser⟩, htype, rfl, rfl⟩ := hgrant
      exact ⟨sc, hsc, hfd, huser, htype, hlevel, hrow, hstores⟩
    | _ => exact hgrant.elim

theorem Unprivileged.stored_step {e : Event} (h : Unprivileged s) (hno : ¬ Escalates e s)
    (hstep : ServerStep lib e s t) : ∀ row ∈ t.db.users.rows, row.privilege < 8 := by
  rcases accounts_of_step hstep with hdb | ⟨v, n, hgrant, hstores, hdb⟩ | ⟨user, pw, salt, hins⟩
  · rw [hdb]
    exact h.stored
  · rw [hdb]
    intro row hrow
    rcases Users.mem_setPrivilege.mp hrow with ⟨hrow, _⟩ | ⟨row', hrow', hid, rfl⟩
    · exact h.stored row hrow
    · by_contra hlevel
      exact hno (escalates_iff.mpr ⟨v, n, hgrant, hstores,
        UInt8.le_iff_toNat_le.mpr (not_lt.mp hlevel), row', hrow', hid⟩)
  · rw [Users.insert_rows hins]
    intro row hrow
    rcases List.mem_append.mp hrow with hrow | hrow
    · exact h.stored row hrow
    · rw [List.mem_singleton.mp hrow]
      exact Nat.succ_pos 7

theorem Unprivileged.online_step {e : Event} (h : Unprivileged s) (hstep : ServerStep lib e s t) :
    ∀ u ∈ t.users, u.pLevel < 8 := by
  have hknew : ∀ u, Knew s u → u.pLevel < 8 := by
    rintro u ⟨v, hv, _, _, hlevel⟩
    rw [← hlevel]
    exact h.online v hv
  rcases knew_of_step hstep with hall | ⟨fd, env, data, new, rfl, hnew, hall⟩
  · exact fun u hu => hknew u (hall u hu)
  · intro u hu
    rcases hall u hu with hu | rfl
    · exact hknew u hu
    · cases hnew with
      | login => exact sqlChLoadPrivileges_lt h.stored _ _

theorem unprivileged_step (e : Event) (s t : ServerState) (h : Unprivileged s)
    (hstep : guarded (ServerStep lib) (fun e s => ¬ Escalates e s) e s t) : Unprivileged t :=
  ⟨h.stored_step hstep.2 hstep.1, h.online_step hstep.1⟩

/-- As long as nobody is privileged a kick closes nothing. -/
theorem Unprivileged.kick_keeps (h : Unprivileged s) {e : Event} (hstep : ServerStep lib e s t) :
    ¬ KickCloses e s t := by
  intro hkick
  cases hstep with
  | accept => exact hkick
  | hangup => exact hkick
  | packet hp =>
    obtain ⟨htype, hclosed⟩ := hkick
    obtain ⟨sc, hsc, _, _, ht⟩ := handled_packet hp
    generalize hu : s.userOf sc = u at ht
    cases ht with
    | kept u s out => simp [send] at hclosed
    | kicked out _ hallowed _ _ =>
      rw [not_isAllowed (h.online _ (userOf_eq_some.mp hu).2.1)] at hallowed
      cases hallowed
    | loggedOut _ _ hc | disconnected _ hc _ | granted _ _ hc | addedFriend _ _ hc
    | removedFriend _ _ hc | createdGroup _ _ _ hc | loggedIn _ _ _ hc | registered _ _ _ hc =>
      exact absurd (htype.symm.trans hc) (by decide)

/-- Without an escalating grant nobody ever has a level of 8, and no event
that can come next is a kick that closes a connection. -/
theorem no_escalation {db : Database} {listener : Nat} {events : List Event}
    (hdb : ∀ row ∈ db.users.rows, row.privilege < 8)
    (hrun : Run (guarded (ServerStep lib) fun e s => ¬ Escalates e s)
      (ServerState.start db listener) events s) :
    Unprivileged s ∧ ∀ e t, ServerStep lib e s t → ¬ KickCloses e s t := by
  have hstart : Unprivileged (ServerState.start db listener) :=
    ⟨hdb, fun u hu => absurd hu (OrderedSet.not_mem_empty u)⟩
  have hs := hrun.invariant unprivileged_step hstart
  exact ⟨hs, fun e t hstep => hs.kick_keeps hstep⟩

theorem no_escalation_login : ∃ s,
    Run (guarded (ServerStep sampleExt) fun e s => ¬ Escalates e s)
      (ServerState.start (sampleDb 7) 3)
      [.accept ⟨1, 4⟩ true, .packet 4 sampleEnv (loginOf [97])] s ∧
    (s.getUserById 1).isSome ∧ Unprivileged s := by
  have hlogin : Run (guarded (ServerStep sampleExt) fun e s => ¬ Escalates e s)
      (ServerState.start (sampleDb 7) 3)
      [.accept ⟨1, 4⟩ true, .packet 4 sampleEnv (loginOf [97])] _ :=
    .cons ⟨.accept true (by decide) (by decide)
        fun sc hsc => absurd hsc (OrderedSet.not_mem_empty sc), fun he => he⟩
      (.cons ⟨.packet rfl, fun ⟨_, _, _, _, htype, _⟩ => absurd htype (by decide)⟩ (.nil _))
  exact ⟨_, hlogin, rfl, (no_escalation (by decide) hlogin).1⟩

/-- An account of no privilege logs in and grants itself level 8. -/
theorem grant_unchecked : (∀ row ∈ (sampleDb 0).users.rows, row.privilege < 8) ∧ ∃ s,
    Run (ServerStep sampleExt) (ServerState.start (sampleDb 0) 3)
      [.accept ⟨1, 4⟩ true, .packet 4 sampleEnv (loginOf [97]),
        .packet 4 sampleEnv (packetOf .grantPrivileges [.int 1, .int 8])] s ∧
    ¬ Unprivileged s := by
  refine ⟨by decide, _, .cons (.accept true (by decide) (by decide)
    fun sc hsc => absurd hsc (OrderedSet.not_mem_empty sc))
    (.cons (.packet rfl) (.cons (.packet rfl) (.nil _))), ?_⟩
  intro h
  exact absurd (h.stored _ (.head _)) (by decide)

/-- The other way round: an escalating grant that is handled makes an account
privileged. -/
theorem escalates_privileges {e : Event} (he : Escalates e s) (hstep : ServerStep lib e s t) :
    ¬ Unprivileged t := by
  intro ht
  obtain ⟨v, n, hgrant, hstores, hlevel, row, hrow, hid⟩ := escalates_iff.mp he
  have hmem : { row with privilege := n.toUInt32.toUInt8.toNat } ∈ t.db.users.rows := by
    rw [grants_step hstep hgrant hstores]
    exact Users.mem_setPrivilege.mpr (.inr ⟨row, hrow, hid, rfl⟩)
  exact absurd (ht.stored _ hmem) (not_lt.mpr (UInt8.le_iff_toNat_le.mp hlevel))

end VhIM.Server
