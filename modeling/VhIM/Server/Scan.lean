import VhIM.Server.Descriptors

/-! # The scan and its ready descriptors

`server_ch_listen` copies `master` before the scan, and dereferences the client
of every descriptor in the copy. A packet can close its sender's descriptor,
which the scan has come to, or those of a user it kicks, which it may not. -/
namespace VhIM.Server
open VhIM.Lib VhIM.Lib.Runs VhIM.Network VhIM.Sql
open ServerState

/-- The scan has still to come to the ready descriptor `d`. -/
def Ahead (l : Listen) (d : Nat) : Prop :=
  match l.phase with
  | .scan i fds => i ≤ d ∧ d ∈ fds
  | .reading i fds _ => i < d ∧ d ∈ fds
  | _ => False

/-- The packet this turn hands over is a kick, one that is allowed, which
closes a ready descriptor ahead of the scan. -/
def KicksAhead (inp : Input) (l : Listen) : Prop :=
  match inp, l.phase with
  | .turn junk _, .reading i fds data =>
    ∃ packet, (bpTurn junk l.rest data).packet = some packet ∧
      ∃ sc ∈ l.server.clients, sc.ssl.fd = i ∧ ∃ d ∈ fds, i < d ∧ KickAims l.server sc packet d
  | _, _ => False

/-- What `select` may report, and what it reported, is the listener or has a
client. -/
structure ScanReady (l : Listen) : Prop where
  watched : ∀ d ∈ l.server.master, d = l.server.listener ∨ HasClient l.server d
  ahead : ∀ d, Ahead l d → d = l.server.listener ∨ HasClient l.server d

variable {lib : Externals} {env : Env} {s t : ServerState} {inp : Input} {l l' : Listen}

theorem ScanReady.closes {closed : List Nat} (h : ScanReady l)
    (hc : Closes closed l.server l'.server) (hahead : ∀ d, Ahead l' d → Ahead l d ∧ d ∉ closed) :
    ScanReady l' := by
  have hkeeps : ∀ d, d ∉ closed → d = l.server.listener ∨ HasClient l.server d →
      d = l'.server.listener ∨ HasClient l'.server d := by
    rintro d hd (rfl | hd')
    · exact .inl hc.listener.symm
    · exact .inr ((hc.clients d).mpr ⟨hd', hd⟩)
  refine ⟨?_, ?_⟩
  · intro d hd
    obtain ⟨hmaster, hnot⟩ := (hc.master d).mp hd
    exact hkeeps d hnot (h.watched d hmaster)
  · intro d hd
    obtain ⟨hbefore, hnot⟩ := hahead d hd
    exact hkeeps d hnot (h.ahead d hbefore)

/-- A step that leaves the server alone and brings nothing ahead of the scan. -/
theorem ScanReady.moved (h : ScanReady l) (hserver : l'.server = l.server)
    (hahead : ∀ d, Ahead l' d → Ahead l d) : ScanReady l' := by
  have hsame : Closes [] l.server l'.server := by
    rw [hserver]; exact closes_same ⟨rfl, rfl, rfl, rfl, rfl, rfl⟩
  exact h.closes hsame fun d hd => ⟨hahead d hd, List.not_mem_nil⟩

theorem ScanReady.turned {rest data : List UInt8} {i : Nat} {fds : Finset Nat}
    {junk : Nat → UInt8} (h : ScanReady ⟨s, rest, .reading i fds data⟩)
    (hran : TurnRan (fun p s => s.cbMsgRcv lib env i p) (bpTurn junk rest data).packet s t)
    (hno : ¬ KicksAhead (.turn junk env) ⟨s, rest, .reading i fds data⟩)
    (hserver : l'.server = t) (hahead : ∀ d, Ahead l' d → i < d ∧ d ∈ fds) : ScanReady l' := by
  subst hserver
  obtain ⟨closed, hclosed, hwhy⟩ := closes_turn hran
  refine h.closes hclosed ?_
  intro d hd
  obtain ⟨hlt, hfds⟩ := hahead d hd
  refine ⟨⟨hlt, hfds⟩, ?_⟩
  intro hin
  obtain ⟨p, hp, sc, hsc, hfd, ⟨_, hown⟩ | haims⟩ := hwhy d hin
  · rw [hown, hfd] at hlt
    exact lt_irrefl i hlt
  · exact hno ⟨p, hp, sc, hsc, hfd, d, hfds, hlt, haims⟩

theorem scanReady_step (inp : Input) (l l' : Listen) (h : ScanReady l)
    (hstep : guarded (ListenStep lib) (fun inp l => ¬ KicksAhead inp l) inp l l') :
    ScanReady l' := by
  obtain ⟨hstep, hno⟩ := hstep
  cases hstep with
  | select _ hfds => exact ⟨h.watched, fun d hd => h.watched d (hfds hd.2)⟩
  | scanned | noClient | failed => exact h.moved rfl fun d hd => hd.elim
  | skipped | refused => exact h.moved rfl fun d hd => ⟨(Nat.le_succ _).trans hd.1, hd.2⟩
  | data => exact h.moved rfl fun d hd => ⟨hd.1.le, hd.2⟩
  | @accepted s _ _ i fds ssl handshake _ _ _ hstep =>
    cases hstep
    cases handshake with
    | false =>
      refine ⟨?_, fun d hd => h.ahead d ⟨(Nat.le_succ _).trans hd.1, hd.2⟩⟩
      intro d hd
      obtain ⟨hne, hd⟩ := Finset.mem_erase.mp hd
      exact h.watched d (Finset.mem_of_mem_insert_of_ne hd hne)
    | true =>
      have hkeeps : ∀ d, d = s.listener ∨ HasClient s d →
          d = s.listener ∨ HasClient (s.accept ssl true) d :=
        fun d hd => hd.imp_right fun hc => (hasClient_accept ssl d).mpr (.inl hc)
      refine ⟨?_, fun d hd => hkeeps d (h.ahead d ⟨(Nat.le_succ _).trans hd.1, hd.2⟩)⟩
      intro d hd
      rcases Finset.mem_insert.mp hd with hd | hd
      · exact .inr ((hasClient_accept ssl d).mpr (.inr hd))
      · exact hkeeps d (h.watched d hd)
  | hungUp _ _ _ hsc hd =>
    obtain ⟨_, hd⟩ := disconnected_of_ok hd
    refine h.closes (closes_disconnected hd) ?_
    intro d hd
    refine ⟨⟨(Nat.le_succ _).trans hd.1, hd.2⟩, ?_⟩
    rw [(OrderedSet.search_eq_some.mp hsc).2, List.mem_singleton]
    exact (Nat.lt_of_succ_le hd.1).ne'
  | again hb => exact h.turned (turnRan_of_again hb) hno rfl fun d hd => hd
  | returned hb => exact h.turned (turnRan_of_returned hb) hno rfl fun d hd => hd

theorem scanReady_start (db : Database) (listener : Nat) :
    ScanReady (Listen.start db listener) :=
  ⟨fun _ hd => .inl (Finset.mem_singleton.mp hd), fun _ hd => hd.elim⟩

/-- At its turn a ready descriptor has a client, as long as no kick closes one
that the scan has still to come to. -/
theorem every_ready_has_client {db : Database} {listener : Nat} {inputs : List Input}
    (hrun : Run (guarded (ListenStep lib) fun inp l => ¬ KicksAhead inp l)
      (Listen.start db listener) inputs l) :
    ∀ i fds, l.phase = .scan i fds → i ∈ fds → i ≠ l.server.listener →
      (l.server.clients.search i).isSome := by
  intro i fds hphase hi hne
  have hready := hrun.invariant scanReady_step (scanReady_start db listener)
  have hahead : Ahead l i := by
    rw [Ahead, hphase]
    exact ⟨le_rfl, hi⟩
  exact isSome_search_iff.mpr ((hready.ahead i hahead).resolve_left hne)

/-- The other way round: a turn with such a kick, if the program goes on, leaves
a ready descriptor ahead of the scan without a client. -/
theorem kicksAhead_leaves_none (hk : KicksAhead inp l) (hstep : ListenStep lib inp l l')
    (hlive : ∀ f, l'.phase ≠ .failed f) : ∃ d, Ahead l' d ∧ ¬ HasClient l'.server d := by
  have hturn : ∀ {rest data : List UInt8} {i : Nat} {fds : Finset Nat} {junk : Nat → UInt8}
      {env : Env} {s t : ServerState},
      KicksAhead (.turn junk env) ⟨s, rest, .reading i fds data⟩ →
      TurnRan (fun p s => s.cbMsgRcv lib env i p) (bpTurn junk rest data).packet s t →
      ∃ d, (i < d ∧ d ∈ fds) ∧ ¬ HasClient t d := by
    rintro rest data i fds junk env s t ⟨p, hp, sc, hsc, hfd, d, hd, hlt, haims⟩ hran
    rw [hp] at hran
    obtain ⟨sc', hsc', hfd', hproc, _⟩ := handled_packet hran
    obtain rfl : sc' = sc := OrderedSet.eq_of_key_eq hsc' hsc (hfd'.trans hfd.symm)
    exact ⟨d, ⟨hlt, hd⟩, kick_closes haims hproc⟩
  cases hstep with
  | again hb => exact hturn hk (turnRan_of_again hb)
  | returned hb => exact hturn hk (turnRan_of_returned hb)
  | failed => exact absurd rfl (hlive _)
  | _ => exact hk.elim

/-- Nothing is read, so what can only be wrong with a turn is not. -/
theorem guarded_of_no_turn {C : Input → Listen → Prop} {inputs : List Input}
    (hC : ∀ inp l, (∀ junk env, inp ≠ .turn junk env) → C inp l)
    (h : Run (ListenStep lib) l inputs l')
    (hno : ∀ inp ∈ inputs, ∀ junk env, inp ≠ .turn junk env) :
    Run (guarded (ListenStep lib) C) l inputs l' := by
  refine h.to_guarded ?_
  rintro pre inp post m rfl _
  exact hC inp m (hno inp (by simp))

theorem not_kicksAhead (inp : Input) (l : Listen) (hno : ∀ junk env, inp ≠ .turn junk env) :
    ¬ KicksAhead inp l := by
  intro hk
  cases inp with
  | turn junk env => exact hno junk env rfl
  | _ => exact hk

/-! ### Two clients to run with -/

theorem listen_twoClients (lib : Externals) (db : Database) : Run (ListenStep lib)
    (Listen.start db 3) (roundOf 3 4 [.accepted ⟨1, 4⟩ true] ++ roundOf 3 5 [.accepted ⟨2, 5⟩ true])
    ⟨twoClients db, [], .select⟩ := by
  obtain ⟨hfirst, hsecond⟩ := twoClients_steps lib db
  have hlistens : FirstReady ((ServerState.start db 3).accept ⟨1, 4⟩ true) 3 {3} :=
    firstReady_singleton subset_rfl (Finset.mem_insert_of_mem (Finset.mem_singleton_self 3))
      (Nat.le_succ 3)
  exact (round_accept [] (firstReady_singleton subset_rfl (Finset.mem_singleton_self 3) le_rfl)
    hfirst (Nat.le_succ 3)).append (round_accept [] hlistens hsecond (Nat.le_succ 4))

/-- Both have data, and the scan comes to the second when the first has logged
in. -/
theorem every_ready_has_client_two :
    (((twoClients (sampleDb 8)).reqLogin sampleExt sampleEnv ⟨1, 4⟩ [97] []).clients.search
      5).isSome := by
  have hfirst : (twoClients (sampleDb 8)).clients.search 4 = some ⟨-1, ⟨1, 4⟩⟩ := rfl
  have hread : Run (ListenStep sampleExt) _ _
      ⟨twoClients (sampleDb 8), [], .reading 4 {4, 5} (loginOf [97])⟩ :=
    ((listen_twoClients sampleExt (sampleDb 8)).append
      (round_begins sampleExt _ [] (by decide))).append
      (.single (.data (by decide) (by decide) (by decide) hfirst (by decide) (by decide)))
  have hno : ∀ inp ∈ roundOf 3 4 [.accepted ⟨1, 4⟩ true] ++ roundOf 3 5 [.accepted ⟨2, 5⟩ true] ++
      (.ready {4, 5} :: List.replicate 4 .none) ++ [.data (loginOf [97])],
      ∀ junk env, inp ≠ .turn junk env := by
    rintro inp hinp junk env rfl
    simp [roundOf] at hinp
  have hlogin : ¬ KicksAhead (.turn (fun _ => 0) sampleEnv)
      ⟨twoClients (sampleDb 8), [], .reading 4 {4, 5} (loginOf [97])⟩ := by
    rintro ⟨packet, hp, _, _, _, _, _, _, htype, _⟩
    obtain rfl : loginOf [97] = packet := Option.some.inj hp
    exact absurd htype (by decide)
  have hturn : Run (guarded (ListenStep sampleExt) fun inp l => ¬ KicksAhead inp l) _ _ _ :=
    (guarded_of_no_turn not_kicksAhead hread hno).append
      (.single ⟨.returned (bpStep_packet ⟨_, _, rfl⟩ (by decide) rfl), hlogin⟩)
  exact every_ready_has_client hturn 5 {4, 5} rfl (by decide) (by decide)

/-- Both are logged in. -/
theorem listen_twoUsers : ∃ inputs,
    Run (ListenStep sampleExt) (Listen.start (sampleDb 8) 3) inputs ⟨twoUsers, [], .select⟩ := by
  have hfirst : Run (ListenStep sampleExt) ⟨twoClients (sampleDb 8), [], .select⟩ _ _ :=
    round_packet ⟨-1, ⟨1, 4⟩⟩ sampleEnv (loginOf [97]) (by decide) (by decide) (.head _)
      ⟨_, _, rfl⟩ (by decide) rfl le_rfl
  have hsecond : Run (ListenStep sampleExt)
      ⟨(twoClients (sampleDb 8)).reqLogin sampleExt sampleEnv ⟨1, 4⟩ [97] [], [], .select⟩ _
      ⟨twoUsers, [], .select⟩ :=
    round_packet ⟨-1, ⟨2, 5⟩⟩ sampleEnv (loginOf [98]) (by decide) (by decide)
      (.tail _ (.head _)) ⟨_, _, rfl⟩ (by decide) rfl le_rfl
  exact ⟨_, ((listen_twoClients sampleExt (sampleDb 8)).append hfirst).append hsecond⟩

/-- Both are ready, and the first kicks the second: the scan comes to a
descriptor without a client. -/
theorem kick_ahead_leaves_none : ∃ inputs s,
    Run (ListenStep sampleExt) (Listen.start (sampleDb 8) 3) inputs ⟨s, [], .scan 5 {4, 5}⟩ ∧
      s.listener = 3 ∧ s.clients.search 5 = none ∧
      ListenStep sampleExt .none ⟨s, [], .scan 5 {4, 5}⟩ ⟨s, [], .failed .nullClient⟩ := by
  obtain ⟨inputs, husers⟩ := listen_twoUsers
  have hscan : Run (ListenStep sampleExt) ⟨twoUsers, [], .select⟩ _
      ⟨twoUsers, [], .scan 4 {4, 5}⟩ :=
    round_begins sampleExt _ [] (by decide)
  have hkick : Run (ListenStep sampleExt) ⟨twoUsers, [], .scan 4 {4, 5}⟩ _ _ :=
    whole_packet ⟨1, ⟨1, 4⟩⟩ sampleEnv (packetOf .cmdKickId [.int 2]) (by decide) (by decide)
      (by decide) (.head _) ⟨_, _, rfl⟩ (by decide) rfl
  refine ⟨_, _, (husers.append hscan).append hkick, rfl, rfl, ?_⟩
  exact .noClient (show 5 ≤ 5 by decide) (by decide) (show (5 : Nat) ≠ 3 by decide) rfl

end VhIM.Server
