import VhIM.Client.Interleaving

/-! # Sending on a live session

The input thread decides to send, and sends a step later. A command is sent
without a question about the connection, `is_connected` is set before there is
one and still set when it is gone, and the other thread may destroy it between
the decision and the step; what is sent in no such case is sent on a session
that is up, and what is decided in one can be sent on none. -/
namespace VhIM.Client
open VhIM.Lib.Runs VhIM.Utility

/-! ## When it is decided to send -/

/-- The thread is at work but has no session: not yet, or no more. -/
def ThreadPc.unready : ThreadPc → Bool
  | .starting | .refused | .destroyed _ => true
  | _ => false

/-- Each `client_ch_send` was called between the start of the current
connection and its destruction. -/
def SendsLive (calls : List Call) : Prop :=
  ∀ r earlier, .send r :: earlier <:+ calls → sessionUp earlier = true

namespace ClientState

/-- The newest thread is not one that is at work without a session. -/
def Ready (s : ClientState) : Prop := ∀ th ∈ s.threads.head?, th.unready = false

/-- The step decides to send only where there is a session, and does not
destroy the session when it is decided to send. -/
def InTime (portDefault : Int32) (m : Move) (s : ClientState) : Prop :=
  match m with
  | .typed line => ∀ r, processInput portDefault (readLine 1024 line) = some (.request r) →
      s.isConnected = true ∧ s.Ready
  | .input _ => s.input.asks = true → s.isConnected = true → s.Ready
  | .thread i _ => ∀ k, s.threads[i]? = some (.left k) → s.input.pending = none

end ClientState

theorem sendsLive_send {r : Request} {calls : List Call} :
    SendsLive (.send r :: calls) ↔ sessionUp calls = true ∧ SendsLive calls := by
  constructor
  · intro h
    exact ⟨h r calls (List.suffix_refl _), fun r' earlier hs => h r' earlier (hs.trans
      (List.suffix_cons _ _))⟩
  · rintro ⟨hup, h⟩ r' earlier hs
    rcases List.suffix_cons_iff.mp hs with he | hs
    · cases he
      exact hup
    · exact h r' earlier hs

theorem sendsLive_other {c : Call} (hc : ∀ r, c ≠ .send r) {calls : List Call}
    (h : SendsLive calls) : SendsLive (c :: calls) := by
  intro r earlier hs
  rcases List.suffix_cons_iff.mp hs with he | hs
  · exact absurd (List.cons.inj he).1.symm (hc r)
  · exact h r earlier hs

namespace ClientState
variable {portDefault : Int32} {s t : ClientState} {m : Move} {ok : Bool}

/-! ## The session and the flag -/

theorem holds_of_ready (hlive : s.live = true) (hready : s.Ready) : s.holds.isSome = true := by
  cases hthreads : s.threads with
  | nil => rw [live, hthreads] at hlive; cases hlive
  | cons th olds =>
    rw [live_of_threads hthreads] at hlive
    have hth : th.unready = false := hready th (by rw [hthreads]; rfl)
    rw [holds_of_threads hthreads]
    cases th with
    | started k | listening k | left k => rfl
    | starting | refused | destroyed k => cases hth
    | ended k => cases hlive

theorem Wf.up_of_ready (h : Wf s) (hfree : s.input.phase = .free) (hflag : s.isConnected = true)
    (hready : s.Ready) : sessionUp s.calls = true ∧ s.holds.isSome = true := by
  have hlive : s.live = true := (h.connected hflag).resolve_right (by rw [hfree]; nofun)
  have hholds := holds_of_ready hlive hready
  exact ⟨(h.up_of_holds hholds).resolve_right (by rw [hfree]; nofun), hholds⟩

theorem Wf.down_of_not_holds (h : Wf s) (hholds : s.holds = none) : sessionUp s.calls = false := by
  cases hup : sessionUp s.calls with
  | false => rfl
  | true =>
    have hsome := h.holds_of_up hup
    rw [hholds] at hsome
    cases hsome

theorem Wf.down_of_not_ready (h : Wf s) (hready : ¬ s.Ready) : sessionUp s.calls = false := by
  refine h.down_of_not_holds ?_
  by_contra hne
  refine hready fun th hth => ?_
  rw [holds, Option.mem_def.mp hth] at hne
  cases th with
  | starting | refused | destroyed k => exact absurd rfl hne
  | _ => rfl

theorem Wf.down_of_not_connected (h : Wf s) (hfree : s.input.phase = .free)
    (hflag : ¬ s.isConnected = true) : sessionUp s.calls = false :=
  h.down_of_not_holds (holds_of_not_live (h.idle_of_not_connected hflag hfree))

theorem phase_of_asks {pc : InputPc} (h : pc.asks = true) : pc.phase = .free := by
  cases pc with
  | asking msg | testing connect => rfl
  | _ => cases h

/-! ## Runs that decide in time -/

/-- So far everything was sent on a session, and what is decided will be. -/
structure Timely (s : ClientState) : Prop where
  wf : Wf s
  live : SendsLive s.calls
  pending : s.input.pending.isSome = true → sessionUp s.calls = true ∧ s.holds.isSome = true

theorem timely_start (argHost : List UInt8) (argPort : Int32) : Timely (start argHost argPort) :=
  by
  refine ⟨wf_start _ _, fun r earlier hs => ?_, nofun⟩
  cases List.suffix_nil.mp hs

theorem Timely.typed (h : Timely s) {line : List UInt8} {a : Action} (hinput : s.input = .reading)
    (ha : processInput portDefault (readLine 1024 line) = some a)
    (hguard : s.InTime portDefault (.typed line)) : Timely (s.act a) := by
  refine ⟨h.wf.act hinput a, ?_, ?_⟩
  · cases a <;> exact h.live
  · cases a with
    | request r =>
      intro _
      obtain ⟨hflag, hready⟩ := hguard r ha
      exact h.wf.up_of_ready (by rw [hinput]; rfl) hflag hready
    | nothing => exact h.pending
    | _ => nofun

theorem Timely.input (h : Timely s) (hstep : s.inputStep ok = some t)
    (hguard : s.InTime portDefault (.input ok)) : Timely t := by
  have hwf := wf_inputStep h.wf hstep
  cases proceed_of_inputStep hstep with
  | turn pc flag hasks =>
    refine ⟨hwf, h.live, fun hsome => ?_⟩
    obtain ⟨hasks, hflag⟩ := hasks hsome
    exact h.wf.up_of_ready (phase_of_asks hasks) hflag (hguard hasks hflag)
  | send r pc hpending hnone =>
    refine ⟨hwf, sendsLive_send.mpr ⟨(h.pending (by rw [hpending]; rfl)).1, h.live⟩, ?_⟩
    intro hsome
    rw [show InputPc.pending _ = none from hnone] at hsome
    cases hsome
  | destroy connect _ => exact ⟨hwf, sendsLive_other (by simp) h.live, nofun⟩
  | create _ => exact ⟨hwf, sendsLive_other (by simp) h.live, nofun⟩

theorem Timely.thread (h : Timely s) {i : Nat} (hstep : s.threadStep i ok = some t)
    (hguard : s.InTime portDefault (.thread i ok)) : Timely t := by
  have hwf := wf_threadStep h.wf hstep
  obtain ⟨rfl, th, olds, hthreads, hadv⟩ := h.wf.advance hstep
  -- a thread without a session is not at work when it is decided to send
  have hpending : s.input.pending.isSome = true →
      sessionUp s.calls = true ∧ th.holds.isSome = true :=
    fun hsome => by
      rw [← holds_of_threads hthreads]
      exact h.pending hsome
  cases hadv with
  | start ok =>
    exact ⟨hwf, sendsLive_other (by simp) h.live, fun hsome => nomatch (hpending hsome).2⟩
  | refuse => exact ⟨hwf, h.live, fun hsome => nomatch (hpending hsome).2⟩
  | finish k => exact ⟨hwf, h.live, fun hsome => nomatch (hpending hsome).2⟩
  | connected k => exact ⟨hwf, h.live, fun hsome => ⟨(hpending hsome).1, rfl⟩⟩
  | leave k => exact ⟨hwf, h.live, fun hsome => ⟨(hpending hsome).1, rfl⟩⟩
  | destroy k =>
    refine ⟨hwf, sendsLive_other (by simp) h.live, fun hsome => ?_⟩
    rw [show s.input.pending = none from hguard k (by rw [hthreads]; rfl)] at hsome
    cases hsome

theorem timely_step (h : Timely s)
    (hstep : guarded (ClientStep portDefault) (InTime portDefault) m s t) : Timely t := by
  obtain ⟨hstep, hguard⟩ := hstep
  cases hstep with
  | typed hinput ha => exact h.typed hinput ha hguard
  | input hstep => exact h.input hstep hguard
  | thread hstep => exact h.thread hstep hguard

/-! ## Decisions that are not in time -/

/-- What is about to be sent on no session is sent in the next step. -/
theorem sends_dead {r : Request} (hpending : t.input.pending = some r)
    (hdown : sessionUp t.calls = false) :
    ∃ m' u, ClientStep portDefault m' t u ∧ ¬ SendsLive u.calls := by
  have hdead : ¬ SendsLive (.send r :: t.calls) := fun h => by
    rw [(sendsLive_send.mp h).1] at hdown
    cases hdown
  cases hpc : t.input with
  | sending r' =>
    rw [hpc] at hpending
    cases hpending
    exact ⟨.input true, _, .input (by rw [inputStep, hpc]), hdead⟩
  | farewell connect =>
    rw [hpc] at hpending
    cases hpending
    exact ⟨.input true, _, .input (by rw [inputStep, hpc]), hdead⟩
  | _ => rw [hpc] at hpending; cases hpending

theorem late_decision_sends_dead (h : Wf s) (hstep : ClientStep portDefault m s t)
    (hlate : ¬ s.InTime portDefault m) :
    ∃ m' u, ClientStep portDefault m' t u ∧ ¬ SendsLive u.calls := by
  cases hstep with
  | typed hinput ha =>
    simp only [InTime, not_forall] at hlate
    obtain ⟨r, hr, hlate⟩ := hlate
    cases ha.symm.trans hr
    refine sends_dead rfl (show sessionUp s.calls = false from ?_)
    by_cases hflag : s.isConnected = true
    · exact h.down_of_not_ready fun hready => hlate ⟨hflag, hready⟩
    · exact h.down_of_not_connected (by rw [hinput]; rfl) hflag
  | input hstep =>
    simp only [InTime, not_forall] at hlate
    obtain ⟨hasks, hflag, hready⟩ := hlate
    have hdown := h.down_of_not_ready hready
    cases hpc : s.input with
    | asking msg =>
      simp only [inputStep, hpc, hflag, if_true, Option.some.injEq] at hstep
      subst hstep
      exact sends_dead rfl hdown
    | testing connect =>
      simp only [inputStep, hpc, hflag, if_true, Option.some.injEq] at hstep
      subst hstep
      exact sends_dead rfl hdown
    | _ => rw [hpc] at hasks; cases hasks
  | thread hstep =>
    simp only [InTime, not_forall] at hlate
    obtain ⟨k, hleft, hpending⟩ := hlate
    obtain ⟨r, hr⟩ := Option.ne_none_iff_exists'.mp hpending
    simp only [threadStep, hleft, Option.some.injEq] at hstep
    subst hstep
    exact sends_dead hr rfl

/-- In a run in which it is always decided in time to send, everything is sent
on a session; a decision that is not in time can be followed by a send that is
not. -/
theorem client_sends_live (portDefault : Int32) (argHost : List UInt8) (argPort : Int32) :
    (∀ moves s, Run (guarded (ClientStep portDefault) (InTime portDefault))
      (start argHost argPort) moves s → SendsLive s.calls) ∧
    ∀ moves s m t, Run (ClientStep portDefault) (start argHost argPort) moves s →
      ClientStep portDefault m s t → ¬ s.InTime portDefault m →
      ∃ m' u, ClientStep portDefault m' t u ∧ ¬ SendsLive u.calls :=
  ⟨fun _ _ hrun =>
      (hrun.invariant (I := Timely) (fun _ _ _ => timely_step) (timely_start _ _)).live,
    fun _ _ _ _ hrun hstep hlate => late_decision_sends_dead (wf_run hrun) hstep hlate⟩

/-- A text is sent to the server that the client has connected to. -/
theorem client_sends_live_hi : SendsLive (.send (.broadcast (text "hi")) :: online.calls) := by
  have hhi : processInput defaultPort (readLine 1024 (text "hi")) = some (.say (text "hi")) := by
    decide +kernel
  have honline : Run (guarded (ClientStep defaultPort) (InTime defaultPort)) (start [] 0)
      connectMoves online := by
    refine run_online (fun s r hr => ?_) (fun s hs _ hasks hflag => ?_) (fun s hs k hk => ?_)
    · cases processInput_connect.symm.trans hr
    · rw [hs hasks] at hflag
      cases hflag
    · rcases hs with hs | hs
      · rw [holds, List.head?_eq_getElem?, hk] at hs
        cases hs
      · rw [hs] at hk
        cases hk
  have hready : online.Ready := fun th hth => by
    cases hth
    rfl
  have hsay : Run (guarded (ClientStep defaultPort) (InTime defaultPort)) online
      [.typed (text "hi"), .input true, .input true] { online with
        calls := .send (.broadcast (text "hi")) :: online.calls } := by
    refine .cons ⟨.typed rfl hhi, fun r hr => ?_⟩ ?_
    · cases hhi.symm.trans hr
    · refine .cons ⟨.input rfl, fun _ _ => hready⟩ (.single ⟨.input rfl, fun hasks _ => ?_⟩)
      exact absurd hasks Bool.false_ne_true
  exact (client_sends_live defaultPort [] 0).1 _ _ (honline.append hsay)

/-- A command before there is any connection. -/
theorem client_sends_dead : ∃ s, Run (ClientStep defaultPort) (start [] 0)
    [.typed (text "/who"), .input true] s ∧ ¬ SendsLive s.calls := by
  have hwho : processInput defaultPort (readLine 1024 (text "/who")) = some (.request .who) := by
    decide +kernel
  refine ⟨_, .cons (.typed rfl hwho) (.single (.input rfl)), fun h => ?_⟩
  exact absurd (h .who [] (List.suffix_refl _)) (by decide)

end ClientState
end VhIM.Client
