import VhIM.Server.Effects

/-! # Connections of users

Every connection that a user online has is the one of a client logged in under
the user's id. This holds however names compare. -/
namespace VhIM.Server
open VhIM.Lib VhIM.Lib.Runs VhIM.Network VhIM.Sql
open ServerState

structure Owned (s : ServerState) : Prop where
  owned : ∀ u ∈ s.users, ∀ c ∈ u.connections, ∃ sc ∈ s.clients, sc.ssl = c ∧ sc.id = u.id
  listed : ∀ u ∈ s.users, u.Counted ∧ u.connections.Nodup ∧ u.connections ≠ []
  positive : ∀ u ∈ s.users, 0 < u.id

variable {lib : Externals} {env : Env} {s t : ServerState} {sc : ServerClient}

theorem owned_start (db : Database) (listener : Nat) : Owned (ServerState.start db listener) := by
  have hno : ∀ u, u ∉ (ServerState.start db listener).users := OrderedSet.not_mem_empty
  exact ⟨fun u h => absurd h (hno u), fun u h => absurd h (hno u), fun u h => absurd h (hno u)⟩

/-- More clients, the same users. -/
theorem Owned.same (h : Owned s) (husers : t.users = s.users)
    (hclients : ∀ sc ∈ s.clients, sc ∈ t.clients) : Owned t := by
  refine ⟨?_, by rw [husers]; exact h.listed, by rw [husers]; exact h.positive⟩
  rw [husers]
  intro u hu c hc
  obtain ⟨sc, hsc, hown⟩ := h.owned u hu c hc
  exact ⟨sc, hclients sc hsc, hown⟩

/-- The entry of `clients` under the descriptor gets the id, the others stay. -/
theorem mem_serverChClientAuthed (hsc : sc ∈ s.clients) (id : Int32) (sc' : ServerClient) :
    sc' ∈ (s.serverChClientAuthed id sc.ssl).clients ↔
      (sc' ∈ s.clients ∧ sc'.ssl.fd ≠ sc.ssl.fd) ∨ sc' = { sc with id := id } := by
  rw [serverChClientAuthed, OrderedSet.mem_modify_self hsc]

/-! ## A connection is detached -/

/-- Among the clients somebody is logged in at, all stay but `sc`. -/
theorem Owned.detach (h : Owned s) (hsc : sc ∈ s.clients) (husers : Detached sc s t)
    (hclients : ∀ sc', 0 < sc'.id →
      (sc' ∈ t.clients ↔ sc' ∈ s.clients ∧ sc'.ssl.fd ≠ sc.ssl.fd)) : Owned t := by
  -- a connection still listed is not the detached one, so its client is still there
  have hstay : ∀ v ∈ s.users, ∀ c ∈ v.connections, (c = sc.ssl → ¬ (0 < sc.id ∧ v.id = sc.id)) →
      ∃ sc' ∈ t.clients, sc'.ssl = c ∧ sc'.id = v.id := by
    intro v hv c hc hne
    obtain ⟨sc', hsc', hssl, hid⟩ := h.owned v hv c hc
    have hpos : 0 < sc'.id := by rw [hid]; exact h.positive v hv
    refine ⟨sc', (hclients sc' hpos).mpr ⟨hsc', ?_⟩, hssl, hid⟩
    intro hfd
    have he := OrderedSet.eq_of_key_eq hsc' hsc hfd
    rw [he] at hssl hid hpos
    exact hne hssl.symm ⟨hpos, hid.symm⟩
  refine ⟨?_, ?_, ?_⟩
  · intro u hu c hc
    rcases (husers u).mp hu with ⟨hu, hno⟩ | ⟨v, hv, _, rfl, _⟩
    · exact hstay u hu c hc fun _ => hno
    · rw [ServerUser.removeConnection_connections] at hc
      rw [ServerUser.removeConnection_id]
      refine hstay v hv c (List.mem_of_mem_erase hc) ?_
      rintro rfl
      exact absurd hc ((h.listed v hv).2.1.not_mem_erase)
  · intro u hu
    rcases (husers u).mp hu with ⟨hu, _⟩ | ⟨v, hv, _, rfl, hne⟩
    · exact h.listed u hu
    · obtain ⟨hcount, hnodup, _⟩ := h.listed v hv
      exact ⟨ServerUser.removeConnection_counted hcount _,
        by rw [ServerUser.removeConnection_connections]; exact hnodup.erase _, hne⟩
  · intro u hu
    rcases (husers u).mp hu with ⟨hu, _⟩ | ⟨v, hv, _, rfl, _⟩
    · exact h.positive u hu
    · rw [ServerUser.removeConnection_id]
      exact h.positive v hv

theorem Owned.disconnected {ssl : Ssl} (h : Owned s) (hd : Disconnected ssl sc s t) : Owned t := by
  refine h.detach hd.mem hd.users (fun sc' _ => ?_)
  rw [hd.clients, OrderedSet.mem_erase, hd.fd]

/-- Logging out leaves the entry of `clients`, without an id. -/
theorem logout_clients {user : ServerUser} (hsc : sc ∈ s.clients) (sc' : ServerClient)
    (hpos : 0 < sc'.id) :
    sc' ∈ (s.logout env sc.ssl user).clients ↔ sc' ∈ s.clients ∧ sc'.ssl.fd ≠ sc.ssl.fd := by
  rw [(sameSockets_logout env s user sc.ssl).clients, mem_serverChClientAuthed hsc]
  constructor
  · intro hin
    rcases hin with hmem | rfl
    · exact hmem
    · exact absurd hpos (show ¬ (0 : Int32) < -1 by decide)
  · exact .inl

/-! ## A connection is attached -/

/-- Nobody has the connection of a client at which nobody is logged in. -/
theorem Owned.free (h : Owned s) (hsc : sc ∈ s.clients) (hun : ¬ 0 < sc.id) :
    ∀ u ∈ s.users, sc.ssl ∉ u.connections := by
  intro u hu hc
  obtain ⟨sc', hsc', hssl, hid⟩ := h.owned u hu _ hc
  rw [OrderedSet.eq_of_key_eq hsc' hsc (by rw [hssl])] at hid
  exact hun (hid ▸ h.positive u hu)

/-- `sc`, at which nobody was logged in, gets an id; whoever is not online as
before has that id, and `sc` as one more connection or the only one. -/
theorem Owned.attach (id : Int32) (h : Owned s) (hsc : sc ∈ s.clients) (hun : ¬ 0 < sc.id)
    (husers : ∀ u ∈ t.users, u ∈ s.users ∨ (u.id = id ∧
      ((∃ v ∈ s.users, u = v.addConnection sc.ssl) ∨
        (u.connections = [sc.ssl] ∧ u.Counted ∧ 0 < u.id))))
    (hclients : t.clients = (s.serverChClientAuthed id sc.ssl).clients) : Owned t := by
  have hmem : ∀ sc', sc' ∈ t.clients ↔
      (sc' ∈ s.clients ∧ sc'.ssl.fd ≠ sc.ssl.fd) ∨ sc' = { sc with id := id } := by
    intro sc'
    rw [hclients]
    exact mem_serverChClientAuthed hsc _ _
  have hstay : ∀ u ∈ s.users, ∀ c ∈ u.connections,
      ∃ sc' ∈ t.clients, sc'.ssl = c ∧ sc'.id = u.id := by
    intro u hu c hc
    obtain ⟨sc', hsc', hssl, hid⟩ := h.owned u hu c hc
    refine ⟨sc', (hmem sc').mpr (.inl ⟨hsc', ?_⟩), hssl, hid⟩
    intro hfd
    rw [OrderedSet.eq_of_key_eq hsc' hsc hfd] at hssl
    exact h.free hsc hun u hu (hssl ▸ hc)
  have hown : ∃ sc' ∈ t.clients, sc'.ssl = sc.ssl ∧ sc'.id = id :=
    ⟨_, (hmem _).mpr (.inr rfl), rfl, rfl⟩
  refine ⟨?_, ?_, ?_⟩
  · intro u hu c hc
    rcases husers u hu with hu | ⟨rfl, ⟨v, hv, rfl⟩ | ⟨hconn, _⟩⟩
    · exact hstay u hu c hc
    · rcases List.mem_cons.mp hc with rfl | hc
      · exact hown
      · exact hstay v hv c hc
    · rw [hconn, List.mem_singleton] at hc
      exact hc ▸ hown
  · intro u hu
    rcases husers u hu with hu | ⟨_, ⟨v, hv, rfl⟩ | ⟨hconn, hcount, _⟩⟩
    · exact h.listed u hu
    · obtain ⟨hcount, hnodup, _⟩ := h.listed v hv
      exact ⟨ServerUser.addConnection_counted hcount _,
        List.nodup_cons.mpr ⟨h.free hsc hun v hv, hnodup⟩, List.cons_ne_nil _ _⟩
    · exact ⟨hcount, by rw [hconn]; exact List.nodup_singleton _, by rw [hconn]; simp⟩
  · intro u hu
    rcases husers u hu with hu | ⟨_, ⟨v, hv, rfl⟩ | ⟨_, _, hpos⟩⟩
    · exact h.positive u hu
    · exact h.positive v hv
    · exact hpos

theorem Owned.loggedIn (h : Owned s) (hsc : sc ∈ s.clients) (hun : ¬ 0 < sc.id)
    (uname upw : List UInt8) : Owned (s.reqLogin lib env sc.ssl uname upw) := by
  obtain ⟨out, ht⟩ | ⟨out, user, hfound, ht⟩ | ⟨out, row, hrow, _, _, ht⟩ :=
    reqLogin_cases lib env s sc.ssl uname upw
  · rw [ht]
    exact h.same rfl fun _ hmem => hmem
  · rw [ht]
    obtain ⟨huser, _⟩ := mapUsername_eq_some hfound
    refine h.attach user.id hsc hun ?_ rfl
    intro u hu
    rcases (mem_addConnection huser u).mp hu with ⟨hu, _⟩ | rfl
    · exact .inl hu
    · exact .inr ⟨rfl, .inl ⟨user, huser, rfl⟩⟩
  · rw [ht]
    refine h.attach row.id hsc hun ?_ rfl
    intro u hu
    rcases OrderedSet.mem_insert.mp hu with hu | ⟨rfl, _⟩
    · exact .inl hu
    · refine .inr ⟨rfl, .inr ⟨rfl, ServerUser.create_counted _ _ _ _, ?_⟩⟩
      exact Int32.lt_iff_toInt_lt.mpr (s.db.users.ids row hrow).1

/-! ## Every event -/

theorem Owned.handled {data : List UInt8} (h : Owned s) (hsc : sc ∈ s.clients)
    (hp : s.processPacket lib env sc data = .ok t)
    (ht : Handled lib env sc.ssl data (s.userOf sc) s t) : Owned t := by
  by_cases hlost : 0 < sc.id ∧ s.userOf sc = none
  · rw [eq_of_lost hlost hp]
    exact h
  have hsame : ∀ {t}, SameSessions s t → Owned t := fun hs =>
    h.same hs.users fun sc hmem => hs.clients ▸ hmem
  generalize hu : s.userOf sc = u at ht
  cases ht with
  | kept u s out => exact hsame (sameSessions_send s out)
  | kicked out _ _ _ hloop =>
    exact kickLoop_keeps (fun c _ sc s t hs hd => hs.disconnected hd) hloop
      (hsame (sameSessions_send s out))
  | loggedOut s user _ =>
    exact h.detach hsc (detached_logout hu) fun sc' hpos => logout_clients hsc sc' hpos
  | disconnected u _ hd =>
    obtain ⟨sc', hd⟩ := disconnected_of_ok hd
    exact h.disconnected hd
  | granted s user _ => exact hsame (sameSessions_db s _)
  | addedFriend s user _ => exact hsame (sameSessions_addFriend _)
  | removedFriend s user _ => exact hsame (sameSessions_removeFriend _)
  | createdGroup s user name _ => exact hsame (sameSessions_db s _)
  | loggedIn s uname upw _ =>
    exact h.loggedIn hsc (fun hpos => hlost ⟨hpos, hu⟩) uname upw
  | registered s uname upw _ => exact hsame (sameSessions_reqRegister uname upw)

theorem owned_step (e : Event) (s t : ServerState) (h : Owned s) (hstep : ServerStep lib e s t) :
    Owned t := by
  cases hstep with
  | @accept _ ssl handshake _ _ _ =>
    refine h.same (by cases handshake <;> rfl) ?_
    intro sc hsc
    cases handshake with
    | false => exact hsc
    | true => exact OrderedSet.mem_insert.mpr (.inl hsc)
  | packet hp =>
    obtain ⟨sc, hsc, _, hproc, hhandled⟩ := handled_packet hp
    exact h.handled hsc hproc hhandled
  | hangup _ hd =>
    obtain ⟨sc', hd⟩ := disconnected_of_ok hd
    exact h.disconnected hd

end VhIM.Server
