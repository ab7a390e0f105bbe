import VhIM.Server.Delivery

/-! # Routing of messages

A broadcast is excluded from its sender by descriptor, while the lists it is
sent along hold SSL objects; in every reachable state the two name the same
connection. -/
namespace VhIM.Server
open VhIM.Lib VhIM.Lib.Runs VhIM.Network VhIM.Sql
open ServerState

/-- Where the messages of whoever is logged in go. -/
structure RoutedExactly (lib : Externals) (s : ServerState) : Prop where
  /-- To every connection of every user, once, but not to the sender's. -/
  broadcast : ∀ env sc user data (msg : List UInt8) n, sc ∈ s.clients → s.userOf sc = some user →
    wireInt data 0 = MsgType.broadcast.code → fieldAt .string (data.drop 8) = some (msg, n) →
    ∃ out, s.cbMsgRcv lib env sc.ssl.fd data = .ok (s.send out) ∧ ∀ c, inbox c out =
      if Connected s c ∧ c ≠ sc.ssl then [packet env (.broadcast (label user) msg)] else []
  /-- To every connection of the target, once. -/
  whisper : ∀ env sc user tuser data (msg : List UInt8) n, sc ∈ s.clients →
    s.userOf sc = some user →
    wireInt data 0 = MsgType.whisper.code → s.getUserById (wireInt data 1) = some tuser →
    fieldAt .string (data.drop 12) = some (msg, n) →
    ∃ out, s.cbMsgRcv lib env sc.ssl.fd data = .ok (s.send out) ∧ ∀ c, inbox c out =
      if c ∈ tuser.connections then [packet env (.broadcast (label user) msg)] else []
  /-- To nobody if the target is not online. -/
  offline : ∀ env sc user data, sc ∈ s.clients → s.userOf sc = some user →
    wireInt data 0 = MsgType.whisper.code → s.getUserById (wireInt data 1) = none →
    12 ≤ data.length → s.cbMsgRcv lib env sc.ssl.fd data = .ok s
  /-- Clients without a user are nobody's connection. -/
  unauthenticated : ∀ sc ∈ s.clients, ¬ 0 < sc.id → ¬ Connected s sc.ssl

variable {lib : Externals} {s : ServerState} {sc : ServerClient} {c : Ssl}

/-- The connections of users are told apart by their descriptors. -/
theorem Sessions.ne_iff_fd_ne (h : Sessions s) (hsc : sc ∈ s.clients) (hc : Connected s c) :
    c ≠ sc.ssl ↔ c.fd ≠ sc.ssl.fd := by
  obtain ⟨u, hu, hcu⟩ := hc
  obtain ⟨sc', hsc', rfl, _⟩ := h.owned u hu c hcu
  constructor
  · intro hne hfd
    exact hne (by rw [OrderedSet.eq_of_key_eq hsc' hsc hfd])
  · exact fun hne he => hne (by rw [he])

theorem Sessions.not_connected (h : Sessions s) (hsc : sc ∈ s.clients) (hun : ¬ 0 < sc.id) :
    ¬ Connected s sc.ssl := by
  rintro ⟨u, hu, hc⟩
  obtain ⟨sc', hsc', hssl, hid⟩ := h.owned u hu _ hc
  rw [OrderedSet.eq_of_key_eq hsc' hsc (by rw [hssl])] at hid
  exact hun (hid ▸ h.positive hu)

theorem Sessions.routedExactly (h : Sessions s) : RoutedExactly lib s := by
  have hstring : ∀ {data msg : List UInt8} {k n : Nat},
      fieldAt .string (data.drop k) = some (msg, n) → k + 5 ≤ data.length := by
    intro data msg k n hmsg
    obtain ⟨hlen, hle⟩ := fieldAt_string_length hmsg
    rw [List.length_drop] at hle
    omega
  refine ⟨?_, ?_, ?_, fun sc hsc hun => h.not_connected hsc hun⟩
  · intro env sc user data msg n hsc hu htype hmsg
    have hlen := hstring hmsg
    refine ⟨s.sendToAll env sc.ssl (.broadcast (label user) msg), ?_, ?_⟩
    · rw [cbMsgRcv_of_authCase hsc hu (by omega), htype, MsgType.ofCode_code]
      simp only [authCase, Get.bind_eq (getString_atInt (k := 1) hmsg)]
      rfl
    · intro c
      rw [inbox_sendToAll h.routable]
      refine if_congr (and_congr_right fun hc => ?_) rfl rfl
      exact (h.ne_iff_fd_ne hsc hc).symm
  · intro env sc user tuser data msg n hsc hu htype htid hmsg
    have hlen := hstring hmsg
    refine ⟨sendToUser env (some tuser) (.broadcast (label user) msg), ?_, ?_⟩
    · have hint : getInt (atInt data 1) = _ := getInt_atInt (by omega)
      rw [cbMsgRcv_of_authCase hsc hu (by omega), htype, MsgType.ofCode_code]
      simp only [authCase, Get.bind_eq hint, htid, Get.bind_eq (getString_atInt (k := 2) hmsg)]
      rfl
    · intro c
      exact inbox_sendToUser h.routable (getUserById_eq_some.mp htid).1 _
  · intro env sc user data hsc hu htype htid hlen
    have hint : getInt (atInt data 1) = _ := getInt_atInt (by omega)
    rw [cbMsgRcv_of_authCase hsc hu (by omega), htype, MsgType.ofCode_code]
    simp only [authCase, Get.bind_eq hint, htid]
    rfl

/-- In every state that events lead to. -/
theorem messages_routed_exactly {db : Database} {listener : Nat} {events : List Event}
    (hname : ∀ a b, lib.nameEq a b = decide (a = b))
    (hrun : Run (ServerStep lib) (ServerState.start db listener) events s) :
    RoutedExactly lib s :=
  (hrun.invariant (sessions_step hname) (sessions_start db listener)).routedExactly

/-- Two users are online, and one says something. -/
theorem messages_routed_exactly_two : ∃ out,
    twoUsers.cbMsgRcv sampleExt sampleEnv 4 (packetOf .broadcast [.string [104, 105]]) =
      .ok (twoUsers.send out) ∧
    inbox ⟨2, 5⟩ out =
      [packet sampleEnv (.broadcast (label ⟨1, 1, [⟨1, 4⟩], [97], 8⟩) [104, 105])] ∧
    inbox ⟨1, 4⟩ out = [] := by
  have hrouted : RoutedExactly sampleExt twoUsers :=
    messages_routed_exactly (fun _ _ => rfl) run_twoUsers
  obtain ⟨out, hsent, hout⟩ := hrouted.broadcast sampleEnv ⟨1, ⟨1, 4⟩⟩ ⟨1, 1, [⟨1, 4⟩], [97], 8⟩
    (packetOf .broadcast [.string [104, 105]]) [104, 105] 7 (.head _) rfl rfl rfl
  exact ⟨out, hsent, by rw [hout]; decide, by rw [hout]; decide⟩

end VhIM.Server
