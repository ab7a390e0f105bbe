import VhIM.Client.Meaning
import VhIM.Lib.Traces
import VhIM.Server.Bookkeeping
import VhIM.Server.Requests

/-! # Conversations

Users connect, type lines and hang up, in any order. Between what is typed and
what the server does lie the parser, the packet, the read and the scan over the
descriptors; from outside there is nothing to see of them. The main loop runs
through exactly the states that the meanings of the lines lead to. -/
namespace VhIM.Server
open VhIM.Lib VhIM.Lib.Runs VhIM.Network VhIM.Sql
open VhIM.Utility (text)
open VhIM.Client (Request lineSends meaning meaning_nulFree meaning_size lineSends_eq)
open VhIM.Network.Datapacket (cursor)
open ServerState

/-! ## What the server makes of a request -/

instance instDecidableMeantFor (s : ServerState) (sc : ServerClient) (r : Request) :
    Decidable (MeantFor s sc r) :=
  match r with
  | .reqRegister _ _ | .reqLogin _ _ => inferInstanceAs (Decidable (¬ 0 < sc.id))
  | .disconnect => inferInstanceAs (Decidable (¬ 0 < sc.id ∨ (s.userOf sc).isSome))
  | .broadcast _ | .kick _ | .whisper _ _ | .logout | .who | .friends | .grantPrivileges _ _
  | .addFriend _ | .removeFriend _ | .groupCreate _ =>
    inferInstanceAs (Decidable ((s.userOf sc).isSome = true))

/-- Out of place a request is ignored. -/
def heeded (s : ServerState) (sc : ServerClient) (r : Request) : Command :=
  if MeantFor s sc r then received s sc r else .ignored

variable {lib : Externals} {env : Env} {s t : ServerState} {sc : ServerClient} {r : Request}
  {line data : List UInt8}

theorem readPacket_meant (hmeant : MeantFor s sc r) (hnul : ∀ f ∈ r.fields, f.NulFree)
    (hsize : 8 + r.body.length < 2 ^ 31) :
    ∃ dp, readPacket s sc (Datapacket.createFromData (packetBytes r.type.code r.body)) =
      .ok (received s sc r, dp) := by
  by_cases hpos : 0 < sc.id
  · obtain ⟨hsome, hlogin, hregister⟩ := authenticated_of_meant hmeant hpos
    obtain ⟨user, hu⟩ := Option.isSome_iff_exists.mp hsome
    obtain ⟨_, _, hread⟩ := readPacket_auth hu hnul hsize hlogin hregister
    exact ⟨_, hread⟩
  · obtain ⟨_, _, hread⟩ :=
      readPacket_unauth hpos hnul hsize (unauthenticated_of_meant hmeant hpos)
    exact ⟨_, hread⟩

/-- A program that reads the type and then ignores the packet. -/
theorem reads_ignored {m : Option MsgType → Get Command} (h : m (some r.type) = pure .ignored) :
    ∃ dp, (getInt >>= fun packetType => m (MsgType.ofCode packetType))
      (Datapacket.createFromData (packetBytes r.type.code r.body)) = .ok (.ignored, dp) := by
  have hreads : Consumes cursor (getInt >>= fun packetType => m (MsgType.ofCode packetType))
      (bcFromInt r.type.code ++ []) .ignored := by
    refine (getInt_consumes r.type.code).bind ?_
    rw [MsgType.ofCode_code, h]
    exact Consumes.pure _
  obtain ⟨_, _, hread⟩ := @reads_front _ r.type.code [] r.body .ignored hreads
  exact ⟨_, hread⟩

theorem readPacket_unmeant (hmeant : ¬ MeantFor s sc r) :
    ∃ dp, readPacket s sc (Datapacket.createFromData (packetBytes r.type.code r.body)) =
      .ok (.ignored, dp) := by
  unfold readPacket
  by_cases hpos : 0 < sc.id
  · rw [if_pos hpos]
    cases hu : s.getUserById sc.id with
    | none => exact ⟨_, rfl⟩
    | some user =>
      have hthere : s.userOf sc = some user := by rw [ServerState.userOf, if_pos hpos, hu]
      have hsome : (s.userOf sc).isSome = true := by rw [hthere]; rfl
      refine reads_ignored (m := readAuth s user) ?_
      cases r with
      | reqRegister | reqLogin => rfl
      | disconnect => exact absurd (.inr hsome) hmeant
      | _ => exact absurd hsome hmeant
  · rw [if_neg hpos]
    refine reads_ignored (m := readUnauth) ?_
    cases r with
    | reqRegister | reqLogin => exact absurd hpos hmeant
    | disconnect => exact absurd (.inl hpos) hmeant
    | _ => rfl

/-- Whatever a client asks for, meant for its state or not. -/
theorem cbMsgRcv_heeded (fresh : Nat → UInt8) (hsc : sc ∈ s.clients)
    (hnul : ∀ f ∈ r.fields, f.NulFree) (hsize : 8 + r.body.length < 2 ^ 31) :
    s.cbMsgRcv lib env sc.ssl.fd (r.send fresh) = serve lib env s sc (heeded s sc r) := by
  have hfound : s.clients.search sc.ssl.fd = some sc := OrderedSet.search_eq_some.mpr ⟨hsc, rfl⟩
  have hread : ∃ dp, readPacket s sc
      (Datapacket.createFromData (packetBytes r.type.code r.body)) = .ok (heeded s sc r, dp) := by
    unfold heeded
    split
    · next hmeant => exact readPacket_meant hmeant hnul hsize
    · next hmeant => exact readPacket_unmeant hmeant
  obtain ⟨_, hread⟩ := hread
  rw [Request.send_eq fresh hsize]
  simp only [cbMsgRcv, hfound]
  exact processPacket_of_read hread

/-! ## Two views of a conversation -/

/-- What users do. -/
inductive Act where
  | connects (ssl : Ssl)
  | hangsUp (fd : Nat) (env : Env)
  /-- A line is typed at the client on descriptor `fd`. -/
  | types (fd : Nat) (line : List UInt8) (env : Env)

/-- What comes of it by the meaning of what is typed. -/
inductive ActStep (lib : Externals) : Act → ServerState → ServerState → Prop
  | connects {ssl : Ssl} {s t : ServerState} :
      ServerStep lib (.accept ssl true) s t → ActStep lib (.connects ssl) s t
  | hangsUp {fd : Nat} {env : Env} {s t : ServerState} :
      ServerStep lib (.hangup fd env) s t → ActStep lib (.hangsUp fd env) s t
  | types {line : List UInt8} {env : Env} {r : Request} {s t : ServerState} {sc : ServerClient} :
      sc ∈ s.clients → meaning line = some r → serve lib env s sc (heeded s sc r) = .ok t →
      ActStep lib (.types sc.ssl.fd line env) s t

def handles (inp : Input) (l : Listen) : List Event :=
  match inp, l.phase with
  | .accepted ssl handshake, _ => [.accept ssl handshake]
  | .hungUp env, .scan i _ => [.hangup i env]
  | .turn _ env, .reading i _ data => [.packet i env data]
  | _, _ => []

/-- What reaches the server of an act: of a line, as `read_line` returns it,
the bytes that the client sends, in one read. -/
inductive Reaches : Act → Event → Prop
  | connects (ssl : Ssl) : Reaches (.connects ssl) (.accept ssl true)
  | hangsUp (fd : Nat) (env : Env) : Reaches (.hangsUp fd env) (.hangup fd env)
  | types {fd : Nat} {line : List UInt8} {env : Env} {r : Request} (fresh : Nat → UInt8)
      (portDefault : Int32) : 0 ∉ line → line.length ≤ 1024 →
      lineSends portDefault line = some r → (r.send fresh).length ≤ 1024 →
      Reaches (.types fd line env) (.packet fd env (r.send fresh))

/-- A line that is sent: its meaning, as a packet. -/
theorem packet_of_line {portDefault : Int32} (fresh : Nat → UInt8) (hnul : 0 ∉ line)
    (hlen : line.length ≤ 1024) (hr : lineSends portDefault line = some r) :
    meaning line = some r ∧ (∀ f ∈ r.fields, f.NulFree) ∧ 8 + r.body.length < 2 ^ 31 ∧
      r.send fresh = packetBytes r.type.code r.body := by
  rw [lineSends_eq portDefault hnul (by omega)] at hr
  have hsize := meaning_size hr
  exact ⟨hr, meaning_nulFree hr hnul, by omega, Request.send_eq fresh (by omega)⟩

/-! ## From the loop to the meanings -/

/-- A packet that is read whole is handed over as it is. -/
theorem bpTurn_packetBytes (junk : Nat → UInt8) {type : Int32} {body : List UInt8}
    (hsize : 8 + body.length < 2 ^ 31) :
    bpTurn junk [] (packetBytes type body) = .whole (packetBytes type body) := by
  have hlen := packetBytes_length type body
  exact bpTurn_packet junk (by omega) (by omega) (packetBytes_size type body)

/-- The loop has not failed. -/
def Listen.Live (l : Listen) : Prop := ∀ f, l.phase ≠ .failed f

variable {l l' : Listen} {inp : Input} {acts : List Act} {events : List Event}

theorem live_before (inp : Input) (l l' : Listen) (h : ListenStep lib inp l l') (_ : l'.Live) :
    l.Live := by
  cases h <;> exact nofun

/-- The packet of a line: it is handed over whole, and to handle it is what the
line means. -/
theorem acts_packet {i : Nat} {env : Env} {data : List UInt8}
    (h : List.Forall₂ Reaches acts [.packet i env data]) :
    (∀ junk, bpTurn junk [] data = .whole data) ∧
      ∀ s t, s.cbMsgRcv lib env i data = .ok t → Run (ActStep lib) s acts t := by
  obtain ⟨act, _, hreaches, hnil, rfl⟩ := List.forall₂_cons_right_iff.mp h
  obtain rfl := List.forall₂_nil_right_iff.mp hnil
  cases hreaches with
  | types fresh portDefault hnul hlen hr _ =>
    obtain ⟨hmeaning, hnul, hsize, hsent⟩ := packet_of_line fresh hnul hlen hr
    refine ⟨fun junk => hsent ▸ bpTurn_packetBytes junk hsize, fun s t hcb => .single ?_⟩
    obtain ⟨sc, hsc, rfl, _⟩ := handled_packet hcb
    refine .types hsc hmeaning ?_
    rw [← cbMsgRcv_heeded fresh hsc hnul hsize]
    exact hcb

/-- The loop is at the state that the meanings lead to, with nothing left over. -/
def Reached (l : Listen) (s : ServerState) : Prop := l.server = s ∧ l.rest = []

/-- What a step handles has its meaning. -/
theorem acts_step (inp : Input) (l l' : Listen) (s : ServerState) (acts : List Act)
    (h : Reached l s) (hstep : ListenStep lib inp l l') (hlive : l'.Live)
    (hacts : List.Forall₂ Reaches acts (handles inp l)) :
    ∃ t, Run (ActStep lib) s acts t ∧ Reached l' t := by
  obtain ⟨rfl, hrest⟩ := h
  cases hstep with
  | select | scanned | skipped | refused | data =>
    obtain rfl := List.forall₂_nil_right_iff.mp hacts
    exact ⟨_, .nil _, rfl, hrest⟩
  | noClient | failed => exact absurd rfl (hlive _)
  | accepted _ _ _ haccept =>
    obtain ⟨act, _, hreaches, hnil, rfl⟩ := List.forall₂_cons_right_iff.mp hacts
    obtain rfl := List.forall₂_nil_right_iff.mp hnil
    cases hreaches
    exact ⟨_, .single (.connects haccept), rfl, hrest⟩
  | hungUp _ _ _ hsc hd =>
    obtain ⟨act, _, hreaches, hnil, rfl⟩ := List.forall₂_cons_right_iff.mp hacts
    obtain rfl := List.forall₂_nil_right_iff.mp hnil
    cases hreaches
    obtain ⟨hmem, rfl⟩ := OrderedSet.search_eq_some.mp hsc
    exact ⟨_, .single (.hangsUp (.hangup hmem hd)), rfl, hrest⟩
  | again hb =>
    obtain rfl : _ = [] := hrest
    -- the packet is whole, so there is no other turn
    obtain ⟨_, hmore, _⟩ := bpStep_eq_again.mp hb
    cases ((@acts_packet lib _ _ _ _ hacts).1 _).symm.trans hmore
  | returned hb =>
    obtain rfl : _ = [] := hrest
    obtain ⟨hwhole, hmeant⟩ := acts_packet hacts
    obtain ⟨hturn, _⟩ | ⟨packet, hturn, hcb, _, hleft⟩ | ⟨hturn, _⟩ := bpStep_eq_returned.mp hb
    · cases (hwhole _).symm.trans hturn
    · cases (hwhole _).symm.trans hturn
      exact ⟨_, hmeant _ _ hcb, rfl, hleft⟩
    · cases (hwhole _).symm.trans hturn

/-! ## From the meanings to the loop -/

/-- The main loop, with what it handles. -/
abbrev HandlingStep (lib : Externals) : Input → Listen × List Event → Listen × List Event → Prop :=
  logged (ListenStep lib) handles

/-- What is handled in a round of its own is all that is seen of it. -/
theorem round_handles {rest' : List UInt8} {i : Nat} {handled : List Input} {log seen : List Event}
    (rest : List UInt8) (hi : FirstReady s i {i}) (htmax : s.fdmax ≤ t.fdmax)
    (h : Run (HandlingStep lib) (⟨s, rest, .scan i {i}⟩, log) handled
      (⟨t, rest', .scan (i + 1) {i}⟩, log ++ seen)) :
    Run (HandlingStep lib) (⟨s, rest, .select⟩, log) (roundOf i t.fdmax handled)
      (⟨t, rest', .select⟩, log ++ seen) := by
  have hnone : ∀ n, ∀ inp ∈ List.replicate n Input.none, ∀ l, handles inp l = [] := by
    intro n inp hinp l
    rw [List.eq_of_mem_replicate hinp]
    rfl
  have hbegin := (round_begins lib s rest hi).quiet 
    (List.forall_mem_cons.mpr ⟨fun _ => rfl, hnone i⟩) log
  have hend := (round_ends lib t rest' i (hi.2.2.2.trans htmax)).quiet 
    (List.forall_mem_append.mpr ⟨hnone _, List.forall_mem_singleton.mpr fun _ => rfl⟩) (log ++ seen)
  exact (hbegin.append h).append hend

theorem Bookkeeping.firstReady (h : Bookkeeping s) {i : Nat} (hi : i ∈ s.master) :
    FirstReady s i {i} := by
  refine firstReady_singleton ?_ hi (h.bounded i hi)
  intro d hd
  by_cases hl : d = s.listener
  · exact hl ▸ h.listening.1
  · exact ((h.sockets d).mpr ((h.watched d).mp ⟨hd, hl⟩)).1

/-- Clients are watched, and no client is the listener. -/
theorem Bookkeeping.client (h : Bookkeeping s) (hsc : sc ∈ s.clients) :
    sc.ssl.fd ∈ s.master ∧ sc.ssl.fd ≠ s.listener := (h.watched _).mpr ⟨sc, hsc, rfl⟩

theorem handles_accept {ssl : Ssl} {log : List Event} (h : Bookkeeping s)
    (hstep : ServerStep lib (.accept ssl true) s t) : ∃ inputs,
      Run (HandlingStep lib) (⟨s, [], .select⟩, log) inputs
        (⟨t, [], .select⟩, log ++ [.accept ssl true]) ∧ Bookkeeping t := by
  have hready := h.firstReady h.listening.2
  have hboth : Bookkeeping t ∧ s.fdmax ≤ t.fdmax := by
    cases hstep with
    | accept _ _ hnew _ =>
      refine ⟨h.accept hnew, ?_⟩
      show s.fdmax ≤ if ssl.fd > s.fdmax then ssl.fd else s.fdmax
      split <;> omega
  have hone : ListenStep lib (.accepted ssl true) ⟨s, [], .scan s.listener {s.listener}⟩
      ⟨t, [], .scan (s.listener + 1) {s.listener}⟩ :=
    .accepted hready.2.2.2 (Finset.mem_singleton_self _) rfl hstep
  exact ⟨_, round_handles [] hready hboth.2 (.single ⟨hone, rfl⟩), hboth.1⟩

theorem handles_hangup {fd : Nat} {log : List Event} (h : Bookkeeping s)
    (hstep : ServerStep lib (.hangup fd env) s t) : ∃ inputs,
      Run (HandlingStep lib) (⟨s, [], .select⟩, log) inputs
        (⟨t, [], .select⟩, log ++ [.hangup fd env]) ∧ Bookkeeping t := by
  cases hstep with
  | @hangup _ _ sc _ hsc hd =>
    obtain ⟨hmaster, hne⟩ := h.client hsc
    have hready := h.firstReady hmaster
    obtain ⟨_, hdisc⟩ := disconnected_of_ok hd
    have hcloses := closes_disconnected hdisc
    have hone : ListenStep lib (.hungUp env) ⟨s, [], .scan sc.ssl.fd {sc.ssl.fd}⟩
        ⟨t, [], .scan (sc.ssl.fd + 1) {sc.ssl.fd}⟩ :=
      .hungUp hready.2.2.2 (Finset.mem_singleton_self _) hne
        (OrderedSet.search_eq_some.mpr ⟨hsc, rfl⟩) hd
    exact ⟨_, round_handles [] hready hcloses.fdmax.ge (.single ⟨hone, rfl⟩), h.closes hcloses⟩

theorem handles_packet {log : List Event} {type : Int32} {body : List UInt8} (h : Bookkeeping s)
    (hsc : sc ∈ s.clients) (hle : (packetBytes type body).length ≤ 1024)
    (hp : s.cbMsgRcv lib env sc.ssl.fd (packetBytes type body) = .ok t) : ∃ inputs,
      Run (HandlingStep lib) (⟨s, [], .select⟩, log) inputs
        (⟨t, [], .select⟩, log ++ [.packet sc.ssl.fd env (packetBytes type body)]) ∧
      Bookkeeping t := by
  obtain ⟨hmaster, hne⟩ := h.client hsc
  have hready := h.firstReady hmaster
  have hlen := packetBytes_length type body
  have hran : TurnRan (fun p s => s.cbMsgRcv lib env sc.ssl.fd p)
      (some (packetBytes type body)) s t :=
    hp
  obtain ⟨closed, hcloses, _⟩ := closes_turn hran
  have hread : ListenStep lib (.data (packetBytes type body)) ⟨s, [], .scan sc.ssl.fd {sc.ssl.fd}⟩
      ⟨s, [], .reading sc.ssl.fd {sc.ssl.fd} (packetBytes type body)⟩ :=
    .data hready.2.2.2 (Finset.mem_singleton_self _) hne (OrderedSet.search_eq_some.mpr ⟨hsc, rfl⟩)
      (List.ne_nil_of_length_pos (by omega)) hle
  have hturn : ListenStep lib (.turn (fun _ => 0) env)
      ⟨s, [], .reading sc.ssl.fd {sc.ssl.fd} (packetBytes type body)⟩
      ⟨t, [], .scan (sc.ssl.fd + 1) {sc.ssl.fd}⟩ :=
    .returned (bpStep_eq_returned.mpr
      (.inr (.inl ⟨_, bpTurn_packetBytes (fun _ => 0) (by omega), hp, rfl, rfl⟩)))
  have hquiet : HandlingStep lib (.data (packetBytes type body))
      (⟨s, [], .scan sc.ssl.fd {sc.ssl.fd}⟩, log)
      (⟨s, [], .reading sc.ssl.fd {sc.ssl.fd} (packetBytes type body)⟩, log) :=
    ⟨hread, (List.append_nil log).symm⟩
  exact ⟨_, round_handles [] hready hcloses.fdmax.ge (.cons hquiet (.single ⟨hturn, rfl⟩)),
    h.closes hcloses⟩

/-- Each act takes a round of the loop. -/
theorem handles_act (act : Act) (a b : ServerState) (l : Listen) (e : Event) (log : List Event)
    (h : l = ⟨a, [], .select⟩ ∧ Bookkeeping a) (hstep : ActStep lib act a b)
    (hreaches : Reaches act e) : ∃ inputs l', Run (HandlingStep lib) (l, log) inputs
      (l', log ++ [e]) ∧ l' = ⟨b, [], .select⟩ ∧ Bookkeeping b := by
  obtain ⟨rfl, hbooks⟩ := h
  have hround : (∃ inputs, Run (HandlingStep lib) (⟨a, [], .select⟩, log) inputs
      (⟨b, [], .select⟩, log ++ [e]) ∧ Bookkeeping b) := by
    cases hreaches with
    | connects ssl =>
      cases hstep with
      | connects haccept => exact handles_accept hbooks haccept
    | hangsUp fd env =>
      cases hstep with
      | hangsUp hhangup => exact handles_hangup hbooks hhangup
    | types fresh portDefault hnul hlen hr hle =>
      obtain ⟨hmeaning, hnul, hsize, hsent⟩ := packet_of_line fresh hnul hlen hr
      cases hstep with
      | types hsc hmeaning' hserved =>
        obtain rfl := Option.some.inj (hmeaning.symm.trans hmeaning')
        rw [← cbMsgRcv_heeded fresh hsc hnul hsize, hsent] at hserved
        rw [hsent] at hle ⊢
        exact handles_packet hbooks hsc hle hserved
  obtain ⟨inputs, hrun, hbooks⟩ := hround
  exact ⟨inputs, _, hrun, rfl, hbooks⟩

/-- Whatever is done and typed, in any order: the main loop, handling what
reaches the server of it, can get to a state exactly if the meanings of the
lines lead there. -/
theorem conversation_executed (lib : Externals) (db : Database) (listener : Nat)
    (t : ServerState) {acts : List Act} {events : List Event}
    (h : List.Forall₂ Reaches acts events) :
    (∃ inputs, Run (HandlingStep lib) (Listen.start db listener, []) inputs
      (⟨t, [], .select⟩, events)) ↔
    Run (ActStep lib) (ServerState.start db listener) acts t := by
  constructor
  · rintro ⟨inputs, hrun⟩
    have hlive : Listen.Live ⟨t, [], .select⟩ := nofun
    obtain ⟨b, hacts, rfl, _⟩ := hrun.explained live_before acts_step hlive
      (show Reached (Listen.start db listener) (ServerState.start db listener) from ⟨rfl, rfl⟩)
      (List.nil_append events).symm h
    exact hacts
  · intro hrun
    obtain ⟨inputs, l, hloop, rfl, _⟩ := hrun.realized handles_act h
      ⟨rfl, bookkeeping_start db listener⟩ []
    exact ⟨inputs, hloop⟩

/-- A client connects and registers. -/
theorem conversation_executed_register : ∃ inputs t,
    Run (HandlingStep sampleExt) (Listen.start Database.empty 3, []) inputs (⟨t, [], .select⟩,
      [.accept ⟨1, 4⟩ true,
        .packet 4 sampleEnv ((Request.reqRegister [97] [112]).send fun _ => 7)]) := by
  have hline : lineSends 0 (text "/register a p") = some (.reqRegister [97] [112]) := by
    decide +kernel
  have hmeaning : meaning (text "/register a p") = some (.reqRegister [97] [112]) := by
    decide +kernel
  have haccept : ServerStep sampleExt (.accept ⟨1, 4⟩ true) (ServerState.start Database.empty 3)
      ((ServerState.start Database.empty 3).accept ⟨1, 4⟩ true) :=
    .accept true (Finset.mem_singleton_self 3) (show (4 : Nat) ∉ ({3} : Finset Nat) by decide)
      fun sc hsc => absurd hsc (OrderedSet.not_mem_empty sc)
  have hserved : serve sampleExt sampleEnv ((ServerState.start Database.empty 3).accept ⟨1, 4⟩ true)
      ⟨-1, ⟨1, 4⟩⟩ (heeded ((ServerState.start Database.empty 3).accept ⟨1, 4⟩ true) ⟨-1, ⟨1, 4⟩⟩
        (.reqRegister [97] [112])) = .ok (((ServerState.start Database.empty 3).accept ⟨1, 4⟩
          true).reqRegister sampleExt sampleEnv ⟨1, 4⟩ [97] [112]) := rfl
  obtain ⟨inputs, hrun⟩ := (conversation_executed sampleExt Database.empty 3 _
    (.cons (.connects ⟨1, 4⟩) (.cons (.types (fun _ => 7) 0 (by decide +kernel) (by decide +kernel)
      hline (by decide +kernel)) .nil))).mpr
    (.cons (.connects haccept) (.single (.types (.head _) hmeaning hserved)))
  exact ⟨inputs, _, hrun⟩

end VhIM.Server
