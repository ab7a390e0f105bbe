import VhIM.Server.Listen

/-! # Descriptors

A connection is known by its descriptor in three places: the tree of clients,
`master`, and the sockets that are open. Whatever ends connections takes their
descriptors out of all three. -/
namespace VhIM.Server
open VhIM.Lib VhIM.Lib.Runs VhIM.Network VhIM.Sql
open ServerState

def HasClient (s : ServerState) (d : Nat) : Prop := ∃ sc ∈ s.clients, sc.ssl.fd = d

/-- The descriptors `closed`, of clients, are gone; the others are as before. -/
structure Closes (closed : List Nat) (s t : ServerState) : Prop where
  had : ∀ d ∈ closed, HasClient s d
  clients : ∀ d, HasClient t d ↔ HasClient s d ∧ d ∉ closed
  master : ∀ d, d ∈ t.master ↔ d ∈ s.master ∧ d ∉ closed
  opened : ∀ d, d ∈ t.opened ↔ d ∈ s.opened ∧ d ∉ closed
  listener : t.listener = s.listener
  fdmax : t.fdmax = s.fdmax

variable {lib : Externals} {env : Env} {s t : ServerState} {sc : ServerClient}

theorem isSome_search_iff {d : Nat} : (s.clients.search d).isSome ↔ HasClient s d := by
  simp only [Option.isSome_iff_exists, OrderedSet.search_eq_some]
  exact Iff.rfl

/-! ## What a packet closes -/

theorem Closes.trans {closed closed' : List Nat} {m : ServerState} (h : Closes closed s m)
    (h' : Closes closed' m t) : Closes (closed ++ closed') s t := by
  have hnot : ∀ d, d ∉ closed ++ closed' ↔ d ∉ closed ∧ d ∉ closed' := by
    intro d; rw [List.mem_append, not_or]
  refine ⟨?_, ?_, ?_, ?_, h'.listener.trans h.listener, h'.fdmax.trans h.fdmax⟩
  · intro d hd
    rcases List.mem_append.mp hd with hd | hd
    · exact h.had d hd
    · exact ((h.clients d).mp (h'.had d hd)).1
  · intro d; rw [h'.clients, h.clients, hnot, and_assoc]
  · intro d; rw [h'.master, h.master, hnot, and_assoc]
  · intro d; rw [h'.opened, h.opened, hnot, and_assoc]

theorem closes_same (h : SameSessions s t) : Closes [] s t := by
  refine ⟨fun d hd => absurd hd List.not_mem_nil, ?_, ?_, ?_, h.listener, h.fdmax⟩
  · intro d; simp [HasClient, h.clients]
  · intro d; simp [h.master]
  · intro d; simp [h.opened]

/-- Nothing is closed by an entry of `clients` getting another id. -/
theorem closes_authed (id : Int32) (ssl : Ssl)
    (hclients : t.clients = (s.serverChClientAuthed id ssl).clients)
    (hlistener : t.listener = s.listener) (hmaster : t.master = s.master)
    (hfdmax : t.fdmax = s.fdmax) (hopened : t.opened = s.opened) : Closes [] s t := by
  refine ⟨fun d hd => absurd hd List.not_mem_nil, ?_, ?_, ?_, hlistener, hfdmax⟩
  · intro d
    simp only [HasClient, hclients, serverChClientAuthed, OrderedSet.mem_modify, List.not_mem_nil,
      not_false_eq_true, and_true]
    constructor
    · rintro ⟨_, ⟨sc, hsc, rfl⟩, hd⟩
      refine ⟨sc, hsc, ?_⟩
      split at hd <;> exact hd
    · rintro ⟨sc, hsc, hd⟩
      refine ⟨_, ⟨sc, hsc, rfl⟩, ?_⟩
      split <;> exact hd
  · intro d; simp [hmaster]
  · intro d; simp [hopened]

theorem closes_logout {ssl : Ssl} {user : ServerUser} : Closes [] s (s.logout env ssl user) := by
  have hsame := sameSockets_logout env s user ssl
  exact closes_authed (-1) ssl hsame.clients hsame.listener hsame.master hsame.fdmax hsame.opened

theorem closes_login {ssl : Ssl} {uname upw : List UInt8} :
    Closes [] s (s.reqLogin lib env ssl uname upw) := by
  obtain ⟨out, ht⟩ | ⟨out, user, _, ht⟩ | ⟨out, row, _, _, _, ht⟩ :=
    reqLogin_cases lib env s ssl uname upw
  · rw [ht]; exact closes_same (sameSessions_send s out)
  · rw [ht]; exact closes_authed user.id ssl rfl rfl rfl rfl rfl
  · rw [ht]; exact closes_authed row.id ssl rfl rfl rfl rfl rfl

theorem closes_disconnected {ssl : Ssl} (h : Disconnected ssl sc s t) : Closes [ssl.fd] s t := by
  refine ⟨?_, ?_, ?_, ?_, h.listener, h.fdmax⟩
  · intro d hd
    exact ⟨sc, h.mem, h.fd.trans (List.mem_singleton.mp hd).symm⟩
  · intro d
    simp only [HasClient, h.clients, OrderedSet.mem_erase, List.mem_singleton]
    constructor
    · rintro ⟨sc', ⟨hsc', hne⟩, rfl⟩; exact ⟨⟨sc', hsc', rfl⟩, hne⟩
    · rintro ⟨⟨sc', hsc', rfl⟩, hne⟩; exact ⟨sc', ⟨hsc', hne⟩, rfl⟩
  · intro d; simp [h.master, and_comm]
  · intro d; simp [h.opened, and_comm]

theorem closes_kickLoop {conns : List Ssl} (h : s.kickLoop env conns = .ok t) :
    Closes (conns.map Ssl.fd) s t := by
  induction conns generalizing s with
  | nil => cases h; exact closes_same ⟨rfl, rfl, rfl, rfl, rfl, rfl⟩
  | cons c conns ih =>
    obtain ⟨sc, m, hd, h⟩ := kickLoop_cons_ok h
    exact (closes_disconnected hd).trans (ih h)

/-- The packet of `sc` is a kick that is allowed, of a user who has a
connection at `d`. -/
def KickAims (s : ServerState) (sc : ServerClient) (packet : List UInt8) (d : Nat) : Prop :=
  wireInt packet 0 = MsgType.cmdKickId.code ∧
    ∃ user, s.userOf sc = some user ∧ isAllowed user.pLevel .cmdKickId = true ∧
      ∃ tuser, s.getUserById (wireInt packet 1) = some tuser ∧ ∃ c ∈ tuser.connections, c.fd = d

/-- Such a kick closes what it aims at. -/
theorem kick_closes {packet : List UInt8} {d : Nat} (hk : KickAims s sc packet d)
    (h : s.processPacket lib env sc packet = .ok t) : ¬ HasClient t d := by
  obtain ⟨htype, user, hu, hallowed, tuser, htid, c, hc, rfl⟩ := hk
  obtain ⟨dp', hcase⟩ := authCase_of_packet hu h
  rw [htype, MsgType.ofCode_code, authCase, if_pos hallowed] at hcase
  have hkick := Get.lift_ok (Get.bind_int hcase)
  rw [cmdKickId, htid] at hkick
  intro hd
  exact (((closes_kickLoop hkick).clients _).mp hd).2 (List.mem_map_of_mem hc)

/-- The packet of `sc` is a MSG_DISCONNECT, and is not dropped for want of a
user with the id of `sc`. -/
def SaysGoodbye (s : ServerState) (sc : ServerClient) (packet : List UInt8) : Prop :=
  wireInt packet 0 = MsgType.disconnect.code ∧ ¬ (0 < sc.id ∧ s.userOf sc = none)

theorem goodbye_closes {packet : List UInt8} (hg : SaysGoodbye s sc packet)
    (h : s.processPacket lib env sc packet = .ok t) : ¬ HasClient t sc.ssl.fd := by
  obtain ⟨htype, hthere⟩ := hg
  have hend : s.serverChDisconnectClient env sc.ssl = .ok t := by
    cases hu : s.userOf sc with
    | some user =>
      obtain ⟨dp', hcase⟩ := authCase_of_packet hu h
      rw [htype, MsgType.ofCode_code] at hcase
      exact Get.lift_ok hcase
    | none =>
      obtain ⟨dp', hcase⟩ := unauthCase_of_packet (fun hpos => hthere ⟨hpos, hu⟩) h
      rw [htype, MsgType.ofCode_code] at hcase
      exact Get.lift_ok hcase
  obtain ⟨sc', hd⟩ := disconnected_of_ok hend
  exact fun hc => (((closes_disconnected hd).clients _).mp hc).2 (List.mem_singleton_self _)

/-- The packet of `sc` ends the connection at `d`: its own, or one it kicks. -/
def EndsAt (s : ServerState) (sc : ServerClient) (packet : List UInt8) (d : Nat) : Prop :=
  (SaysGoodbye s sc packet ∧ d = sc.ssl.fd) ∨ KickAims s sc packet d

theorem endsAt_closes {packet : List UInt8} {d : Nat} (he : EndsAt s sc packet d)
    (h : s.processPacket lib env sc packet = .ok t) : ¬ HasClient t d := by
  rcases he with ⟨hg, rfl⟩ | hk
  · exact goodbye_closes hg h
  · exact kick_closes hk h

/-- A packet closes no more than that. -/
theorem closes_packet {packet : List UInt8} (hp : s.processPacket lib env sc packet = .ok t)
    (h : Handled lib env sc.ssl packet (s.userOf sc) s t) :
    ∃ closed, Closes closed s t ∧ ∀ d ∈ closed, EndsAt s sc packet d := by
  have hnone : Closes [] s t →
      ∃ closed, Closes closed s t ∧ ∀ d ∈ closed, EndsAt s sc packet d :=
    fun hc => ⟨[], hc, fun d hd => absurd hd List.not_mem_nil⟩
  by_cases hlost : 0 < sc.id ∧ s.userOf sc = none
  · rw [eq_of_lost hlost hp]
    exact ⟨[], closes_same ⟨rfl, rfl, rfl, rfl, rfl, rfl⟩, fun d hd => absurd hd List.not_mem_nil⟩
  generalize hu : s.userOf sc = u at h
  cases h with
  | kept u s out => exact hnone (closes_same (sameSessions_send s out))
  | @kicked _ _ user tuser out htype hallowed htid hk =>
    have hclosed := (closes_same (sameSessions_send s out)).trans (closes_kickLoop hk)
    rw [List.nil_append] at hclosed
    refine ⟨_, hclosed, ?_⟩
    intro d hd
    obtain ⟨c, hc, hfd⟩ := List.mem_map.mp hd
    exact .inr ⟨htype, user, hu, hallowed, tuser, htid, c, hc, hfd⟩
  | loggedOut s user _ => exact hnone closes_logout
  | disconnected u htype hd =>
    obtain ⟨sc', hd⟩ := disconnected_of_ok hd
    exact ⟨_, closes_disconnected hd,
      fun d hd => .inl ⟨⟨htype, hu ▸ hlost⟩, List.mem_singleton.mp hd⟩⟩
  | granted s user _ => exact hnone (closes_same (sameSessions_db s _))
  | addedFriend s user _ => exact hnone (closes_same (sameSessions_addFriend _))
  | removedFriend s user _ => exact hnone (closes_same (sameSessions_removeFriend _))
  | createdGroup s user name _ => exact hnone (closes_same (sameSessions_db s _))
  | loggedIn s uname upw _ => exact hnone closes_login
  | registered s uname upw _ => exact hnone (closes_same (sameSessions_reqRegister uname upw))

/-- So does a turn of `bp_process_data`, for what was read from `i`. -/
theorem closes_turn {i : Nat} {packet : Option (List UInt8)}
    (h : TurnRan (fun p s => s.cbMsgRcv lib env i p) packet s t) :
    ∃ closed, Closes closed s t ∧ ∀ d ∈ closed,
      ∃ p, packet = some p ∧ ∃ sc ∈ s.clients, sc.ssl.fd = i ∧ EndsAt s sc p d := by
  cases packet with
  | none =>
    cases h
    exact ⟨[], closes_same ⟨rfl, rfl, rfl, rfl, rfl, rfl⟩, fun d hd => absurd hd List.not_mem_nil⟩
  | some p =>
    obtain ⟨sc, hsc, hfd, hproc, hhandled⟩ := handled_packet h
    obtain ⟨closed, hclosed, hwhy⟩ := closes_packet hproc hhandled
    exact ⟨closed, hclosed, fun d hd => ⟨p, rfl, sc, hsc, hfd, hwhy d hd⟩⟩

/-- With the connection of a new client, its descriptor. -/
theorem hasClient_accept (ssl : Ssl) (d : Nat) :
    HasClient (s.accept ssl true) d ↔ HasClient s d ∨ d = ssl.fd := by
  show (∃ sc ∈ s.clients.insert ⟨-1, ssl⟩, sc.ssl.fd = d) ↔ _
  constructor
  · rintro ⟨sc, hsc, rfl⟩
    rcases OrderedSet.mem_insert.mp hsc with hsc | ⟨rfl, _⟩
    · exact .inl ⟨sc, hsc, rfl⟩
    · exact .inr rfl
  · intro h
    rcases h with ⟨sc, hsc, rfl⟩ | rfl
    · exact ⟨sc, OrderedSet.mem_insert.mpr (.inl hsc), rfl⟩
    · by_cases hnew : ∀ b ∈ s.clients, b.ssl.fd ≠ ssl.fd
      · exact ⟨_, OrderedSet.mem_insert.mpr (.inr ⟨rfl, hnew⟩), rfl⟩
      · push Not at hnew
        obtain ⟨b, hb, hfd⟩ := hnew
        exact ⟨b, OrderedSet.mem_insert.mpr (.inl hb), hfd⟩

end VhIM.Server
