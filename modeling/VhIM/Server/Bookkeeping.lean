import VhIM.Server.Descriptors

/-! # Descriptor bookkeeping

The listener apart, `master`, the open sockets and the clients are the same
descriptors at every call of `select`. A handshake that fails breaks this: the
clean-up after it closes the listener. -/
namespace VhIM.Server
open VhIM.Lib VhIM.Lib.Runs VhIM.Network VhIM.Sql
open ServerState

structure Bookkeeping (s : ServerState) : Prop where
  listening : s.listener ∈ s.opened ∧ s.listener ∈ s.master
  bounded : ∀ d ∈ s.master, d ≤ s.fdmax
  watched : ∀ d, d ∈ s.master ∧ d ≠ s.listener ↔ HasClient s d
  distinct : s.clients.keys.Nodup
  sockets : ∀ d, d ∈ s.opened ∧ d ≠ s.listener ↔ HasClient s d

variable {lib : Externals} {s t : ServerState} {inputs : List Input} {l l' : Listen}

theorem bookkeeping_start (db : Database) (listener : Nat) :
    Bookkeeping (ServerState.start db listener) := by
  have hno : ∀ d, ¬ HasClient (ServerState.start db listener) d :=
    fun d ⟨sc, hsc, _⟩ => OrderedSet.not_mem_empty sc hsc
  have honly : ∀ d, d ∈ ({listener} : Finset Nat) ∧ d ≠ listener ↔
      HasClient (ServerState.start db listener) d :=
    fun d => ⟨fun h => absurd (Finset.mem_singleton.mp h.1) h.2, fun h => absurd h (hno d)⟩
  exact ⟨⟨Finset.mem_singleton_self _, Finset.mem_singleton_self _⟩,
    fun d hd => (Finset.mem_singleton.mp hd).le, honly, .nil, honly⟩

/-! ## The ends of connections -/

/-- What is closed has a client, so it is not the listener. -/
theorem Bookkeeping.closes {closed : List Nat} (h : Bookkeeping s) (hc : Closes closed s t) :
    Bookkeeping t := by
  have hl : t.listener ∉ closed := by
    rw [hc.listener]
    exact fun hin => ((h.watched _).mpr (hc.had _ hin)).2 rfl
  refine ⟨⟨?_, ?_⟩, ?_, ?_, t.clients.nodup_keys, ?_⟩
  · exact (hc.opened _).mpr ⟨hc.listener ▸ h.listening.1, hl⟩
  · exact (hc.master _).mpr ⟨hc.listener ▸ h.listening.2, hl⟩
  · intro d hd
    rw [hc.fdmax]
    exact h.bounded d ((hc.master d).mp hd).1
  · intro d
    rw [hc.master, hc.clients, hc.listener, ← h.watched, and_right_comm]
  · intro d
    rw [hc.opened, hc.clients, hc.listener, ← h.sockets, and_right_comm]

/-! ## The new connections -/

theorem mem_insert_ne {a listener : Nat} {fds : Finset Nat} (hne : a ≠ listener) (d : Nat) :
    d ∈ insert a fds ∧ d ≠ listener ↔ (d ∈ fds ∧ d ≠ listener) ∨ d = a := by
  rw [Finset.mem_insert]
  constructor
  · rintro ⟨rfl | hd, hdl⟩
    · exact .inr rfl
    · exact .inl ⟨hd, hdl⟩
  · intro h
    rcases h with ⟨hd, hdl⟩ | rfl
    · exact ⟨.inr hd, hdl⟩
    · exact ⟨.inl rfl, hne⟩

theorem Bookkeeping.accept {ssl : Ssl} (h : Bookkeeping s) (hnew : ssl.fd ∉ s.opened) :
    Bookkeeping (s.accept ssl true) := by
  have hne : ssl.fd ≠ s.listener := by
    intro he
    exact hnew (he ▸ h.listening.1)
  refine ⟨⟨Finset.mem_insert_of_mem h.listening.1, Finset.mem_insert_of_mem h.listening.2⟩, ?_, ?_,
    (s.accept ssl true).clients.nodup_keys, ?_⟩
  · intro d hd
    show d ≤ if ssl.fd > s.fdmax then ssl.fd else s.fdmax
    rcases Finset.mem_insert.mp hd with rfl | hd
    · split <;> omega
    · have hle := h.bounded d hd
      split <;> omega
  · intro d
    rw [hasClient_accept, ← h.watched]
    exact mem_insert_ne hne d
  · intro d
    rw [hasClient_accept, ← h.sockets]
    exact mem_insert_ne hne d

/-! ## The loop -/

/-- A step accepts a connection, or some connections end. -/
theorem listenStep_sockets {inp : Input} (h : ListenStep lib inp l l') :
    (∃ ssl handshake, inp = .accepted ssl handshake ∧
      ServerStep lib (.accept ssl handshake) l.server l'.server) ∨
    ∃ closed, Closes closed l.server l'.server := by
  have hturn : ∀ {i : Nat} {packet : Option (List UInt8)} {s t : ServerState} {env : Env},
      TurnRan (fun p s => s.cbMsgRcv lib env i p) packet s t → ∃ closed, Closes closed s t :=
    fun hran => (closes_turn hran).imp fun _ h => h.1
  cases h with
  | select | scanned | skipped | refused | noClient | data | failed =>
    exact .inr ⟨[], closes_same ⟨rfl, rfl, rfl, rfl, rfl, rfl⟩⟩
  | accepted _ _ _ hstep => exact .inl ⟨_, _, rfl, hstep⟩
  | hungUp _ _ _ _ hd =>
    obtain ⟨_, hd⟩ := disconnected_of_ok hd
    exact .inr ⟨_, closes_disconnected hd⟩
  | again hb => exact .inr (hturn (turnRan_of_again hb))
  | returned hb => exact .inr (hturn (turnRan_of_returned hb))

theorem bookkeeping_step {inp : Input} (h : Bookkeeping l.server) (hstep : ListenStep lib inp l l')
    (hshake : ∀ ssl, inp ≠ .accepted ssl false) : Bookkeeping l'.server := by
  obtain ⟨ssl, handshake, rfl, ha⟩ | ⟨closed, hc⟩ := listenStep_sockets hstep
  · generalize hs : l.server = s at h ha
    generalize l'.server = t at ha
    cases ha with
    | accept _ _ hnew _ =>
      cases handshake with
      | false => exact absurd rfl (hshake ssl)
      | true => exact h.accept hnew
  · exact h.closes hc

/-- A failed handshake closes the listener. -/
theorem handshake_closes_listener {ssl : Ssl} (h : ListenStep lib (.accepted ssl false) l l') :
    l'.server.listener ∉ l'.server.opened := by
  cases h with
  | accepted _ _ _ ha =>
    cases ha
    exact Finset.notMem_erase _ _

/-- It is never opened again: `accept` needs it. -/
theorem listener_stays_closed {inp : Input} (h : l.server.listener ∉ l.server.opened)
    (hstep : ListenStep lib inp l l') : l'.server.listener ∉ l'.server.opened := by
  obtain ⟨ssl, handshake, _, ha⟩ | ⟨closed, hc⟩ := listenStep_sockets hstep
  · generalize l.server = s at h ha
    generalize l'.server = t at ha
    cases ha with
    | accept _ hopen _ _ => exact absurd hopen h
  · rw [hc.listener]
    exact fun hin => h ((hc.opened _).mp hin).1

theorem bookkeeping_run (hrun : Run (ListenStep lib) l inputs l') (h : Bookkeeping l.server)
    (hshake : ∀ ssl, Input.accepted ssl false ∉ inputs) : Bookkeeping l'.server := by
  induction hrun with
  | nil _ => exact h
  | cons hstep _ ih =>
    have hm := bookkeeping_step h hstep fun ssl he => hshake ssl (he ▸ .head _)
    exact ih hm fun ssl hin => hshake ssl (.tail _ hin)

theorem listener_closed_of_handshake {ssl : Ssl} (hrun : Run (ListenStep lib) l inputs l')
    (hin : Input.accepted ssl false ∈ inputs) : l'.server.listener ∉ l'.server.opened := by
  induction hrun with
  | nil _ => cases hin
  | cons hstep hrest ih =>
    rcases List.mem_cons.mp hin with rfl | hin
    · exact hrest.invariant (I := fun l => l.server.listener ∉ l.server.opened)
        (fun _ _ _ h hs => listener_stays_closed h hs) (handshake_closes_listener hstep)
    · exact ih hin

/-- The books are right wherever the loop gets to, at `select` or elsewhere, if
and only if no handshake has failed. -/
theorem bookkeeping_iff_handshakes {db : Database} {listener : Nat}
    (hrun : Run (ListenStep lib) (Listen.start db listener) inputs l) :
    Bookkeeping l.server ↔ ∀ ssl, Input.accepted ssl false ∉ inputs := by
  constructor
  · intro h ssl hin
    exact listener_closed_of_handshake hrun hin h.listening.1
  · exact bookkeeping_run hrun (bookkeeping_start db listener)

/-- A server at which one connection, from descriptor 4, has been tried. -/
theorem run_handshake (lib : Externals) (db : Database) (handshake : Bool) :
    Run (ListenStep lib) (Listen.start db 3) (roundOf 3 4 [.accepted ⟨1, 4⟩ handshake])
      ⟨(ServerState.start db 3).accept ⟨1, 4⟩ handshake, [], .select⟩ := by
  have hstep : ServerStep lib (.accept ⟨1, 4⟩ handshake) (ServerState.start db 3)
      ((ServerState.start db 3).accept ⟨1, 4⟩ handshake) :=
    .accept handshake (Finset.mem_singleton_self 3) (show (4 : Nat) ∉ ({3} : Finset Nat) by decide)
      fun sc hsc => absurd hsc (OrderedSet.not_mem_empty sc)
  have hround := round_accept []
    (firstReady_singleton subset_rfl (Finset.mem_singleton_self 3) le_rfl) hstep
  cases handshake
  · exact hround (show (3 : Nat) ≤ 4 by decide)
  · exact hround (show (3 : Nat) ≤ 4 by decide)

theorem bookkeeping_iff_handshakes_one :
    Bookkeeping ((ServerState.start Database.empty 3).accept ⟨1, 4⟩ true) :=
  (bookkeeping_iff_handshakes (run_handshake sampleExt Database.empty true)).mpr
    fun ssl hin => by simp [roundOf] at hin

/-- After the failure the loop returns to `select`, with the listener closed. -/
theorem handshake_breaks_books : ∃ inputs s,
    Run (ListenStep sampleExt) (Listen.start Database.empty 3) inputs ⟨s, [], .select⟩ ∧
      s.listener ∉ s.opened ∧ ¬ Bookkeeping s := by
  refine ⟨_, _, run_handshake sampleExt Database.empty false, ?_, ?_⟩
  · exact Finset.notMem_erase _ _
  · exact fun h => absurd h.listening.1 (Finset.notMem_erase _ _)

end VhIM.Server
