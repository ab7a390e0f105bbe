import VhIM.Client.Interleaving

/-! # Releasing a session

`threaded_connect` destroys the session it opened when it stops listening, and
`client_disconnect` destroys whatever `sockfd` and `ctx` are of. Where the
latter are a session's, that session is destroyed by both. -/
namespace VhIM.Client
open VhIM.Lib.Runs VhIM.Utility

/-! ## Sessions and calls -/

theorem heldSession_lt {calls : List Call} {k : Nat} (h : heldSession calls = some k) :
    k < opened calls := by
  induction calls with
  | nil => cases h
  | cons c calls ih =>
    cases c with
    | start host port ok =>
      cases ok with
      | true =>
        cases h
        exact Nat.lt_succ_self _
      | false => cases h
    | create | send r | destroy => exact ih h

/-- What was not opened was not destroyed. -/
theorem releases_eq_zero {calls : List Call} {k : Nat} (h : opened calls ≤ k) :
    releases k calls = 0 := by
  induction calls with
  | nil => rfl
  | cons c calls ih =>
    cases c with
    | start host port ok =>
      cases ok with
      | true => exact ih (Nat.le_of_succ_le h)
      | false => exact ih h
    | create | send r => exact ih h
    | destroy =>
      have hne : heldSession calls ≠ some k := fun hk => Nat.not_lt.mpr h (heldSession_lt hk)
      rw [releases, ih h, if_neg hne]

theorem releases_destroy_self {calls : List Call} {k : Nat} (h : heldSession calls = some k) :
    releases k (.destroy :: calls) = releases k calls + 1 := by
  rw [releases, if_pos h]

theorem releases_destroy_ne {calls : List Call} {k : Nat} (h : heldSession calls ≠ some k) :
    releases k (.destroy :: calls) = releases k calls := by
  rw [releases, if_neg h]
  rfl

namespace ClientState

/-- No session was destroyed twice, and one whose thread has ended was
destroyed once. -/
structure ReleasedOnce (s : ClientState) : Prop where
  atMost : ∀ k < opened s.calls, releases k s.calls ≤ 1
  exactly : ∀ k, .ended (some k) ∈ s.threads → releases k s.calls = 1

/-- The input thread does not destroy while `sockfd` and `ctx` are a session's. -/
def Spares (m : Move) (s : ClientState) : Prop :=
  match m with
  | .input _ => ∀ connect, s.input = .destroying connect → heldSession s.calls = none
  | _ => True

variable {portDefault : Int32} {s t : ClientState} {m : Move} {ok : Bool}

/-! ## Runs that spare the sessions -/

/-- A session was destroyed by its thread, or is still held by it. -/
structure Once (s : ClientState) : Prop where
  wf : Wf s
  once : ∀ k < opened s.calls, releases k s.calls = if s.holds = some k then 0 else 1
  past : ∀ k, .destroyed k ∈ s.threads ∨ .ended (some k) ∈ s.threads →
    k < opened s.calls ∧ s.holds ≠ some k

theorem once_start (argHost : List UInt8) (argPort : Int32) : Once (start argHost argPort) :=
  ⟨wf_start _ _, fun _ hk => absurd hk (Nat.not_lt_zero _), by simp [start]⟩

theorem Once.releasedOnce (h : Once s) : ReleasedOnce s where
  atMost k hk := by
    rw [h.once k hk]
    split <;> omega
  exactly k hk := by
    obtain ⟨hlt, hne⟩ := h.past k (.inr hk)
    rw [h.once k hlt, if_neg hne]

theorem Once.act (h : Once s) (hinput : s.input = .reading) (a : Action) : Once (s.act a) := by
  have hwf := h.wf.act hinput a
  cases a <;> exact ⟨hwf, h.once, h.past⟩

theorem Once.input (h : Once s) (hstep : s.inputStep ok = some t) (hguard : Spares (.input ok) s) :
    Once t := by
  have hwf := wf_inputStep h.wf hstep
  cases proceed_of_inputStep hstep with
  | turn pc flag _ => exact ⟨hwf, h.once, h.past⟩
  | send r pc _ _ => exact ⟨hwf, h.once, h.past⟩
  | destroy connect hpc =>
    have hheld : ∀ k, heldSession s.calls ≠ some k := fun k => by
      rw [hguard connect hpc]
      nofun
    exact ⟨hwf, fun k hk => (releases_destroy_ne (hheld k)).trans (h.once k hk), h.past⟩
  | create hpc =>
    have hholds := holds_of_not_live (h.wf.alone (by rw [hpc]; rfl))
    refine ⟨hwf, fun k hk => ?_, fun k hk => ⟨(h.past k ?_).1, nofun⟩⟩
    · have honce := h.once k hk
      rw [hholds] at honce
      exact honce
    · simpa using hk

section
variable {th : ThreadPc} {olds : List ThreadPc}

theorem Once.past_of_olds (h : Once s) (hthreads : s.threads = th :: olds) {k : Nat}
    (hk : .destroyed k ∈ olds ∨ .ended (some k) ∈ olds) :
    k < opened s.calls ∧ th.holds ≠ some k := by
  rw [← holds_of_threads hthreads]
  refine h.past k ?_
  rw [hthreads]
  exact hk.imp (.tail _) (.tail _)

theorem Once.opens (h : Once s) (hthreads : s.threads = .starting :: olds) (ok : Bool) :
    Once { s with
    threads := (if ok then .started (opened s.calls) else .refused) :: olds
    calls := .start s.argHost s.argPort ok :: s.calls } := by
  have hwf := h.wf.opens hthreads ok
  have hone : ∀ k < opened s.calls, releases k s.calls = 1 := fun k hk => by
    rw [h.once k hk, holds_of_threads hthreads]
    rfl
  cases ok with
  | true =>
    refine ⟨hwf, fun k hk => ?_, fun k hk => ?_⟩
    · rcases Nat.lt_succ_iff_lt_or_eq.mp hk with hlt | rfl
      · have hne : some (opened s.calls) ≠ some k := by simp [hlt.ne']
        exact (hone k hlt).trans (if_neg hne).symm
      · exact (releases_eq_zero le_rfl).trans (if_pos rfl).symm
    · obtain ⟨hlt, _⟩ := h.past_of_olds hthreads (k := k) (by simpa using hk)
      refine ⟨Nat.lt_succ_of_lt hlt, fun he => ?_⟩
      exact hlt.ne (Option.some.inj he).symm
  | false =>
    refine ⟨hwf, fun k hk => hone k hk, fun k hk => ⟨?_, nofun⟩⟩
    exact (h.past_of_olds hthreads (k := k) (by simpa using hk)).1

theorem Once.destroys (h : Once s) {k : Nat} (hthreads : s.threads = .left k :: olds) :
    Once { s with threads := .destroyed k :: olds, calls := .destroy :: s.calls } := by
  have hholds : s.holds = some k := holds_of_threads hthreads
  have hheld : heldSession s.calls = some k := h.wf.held k hholds
  refine ⟨h.wf.destroys hthreads, fun j hj => ?_, fun j hj => ⟨?_, nofun⟩⟩
  · have honce := h.once j hj
    by_cases hjk : j = k
    · subst hjk
      rw [hholds, if_pos rfl] at honce
      exact (releases_destroy_self hheld).trans (by rw [honce]; rfl)
    · have hne : some k ≠ some j := fun he => hjk (Option.some.inj he).symm
      rw [hholds, if_neg hne] at honce
      exact (releases_destroy_ne (hheld ▸ hne)).trans honce
  · by_cases hjk : j = k
    · rw [hjk]
      exact heldSession_lt hheld
    · refine (h.past_of_olds hthreads ?_).1
      simpa [hjk] using hj

end

theorem Once.thread (h : Once s) {i : Nat} (hstep : s.threadStep i ok = some t) : Once t := by
  have hwf := wf_threadStep h.wf hstep
  obtain ⟨-, th, olds, hthreads, hadv⟩ := h.wf.advance hstep
  have hholds := holds_of_threads hthreads
  cases hadv with
  | start ok => exact h.opens hthreads ok
  | destroy k => exact h.destroys hthreads
  | connected k | leave k =>
    refine ⟨hwf, fun j hj => ?_, fun j hj => h.past_of_olds hthreads (by simpa using hj)⟩
    have honce := h.once j hj
    rw [hholds] at honce
    exact honce
  | refuse =>
    refine ⟨hwf, fun j hj => ?_, fun j hj => h.past_of_olds hthreads (by simpa using hj)⟩
    have honce := h.once j hj
    rw [hholds] at honce
    exact honce
  | finish k =>
    refine ⟨hwf, fun j hj => ?_, fun j hj => ?_⟩
    · have honce := h.once j hj
      rw [hholds] at honce
      exact honce
    · refine ⟨(h.past j ?_).1, nofun⟩
      rw [hthreads]
      simp only [List.mem_cons, reduceCtorEq, false_or, ThreadPc.ended.injEq,
        Option.some.injEq] at hj
      rcases hj with hj | rfl | hj
      · exact .inl (.tail _ hj)
      · exact .inl (.head _)
      · exact .inr (.tail _ hj)

theorem once_step (h : Once s) (hstep : guarded (ClientStep portDefault) Spares m s t) :
    Once t := by
  obtain ⟨hstep, hguard⟩ := hstep
  cases hstep with
  | typed hinput _ => exact h.act hinput _
  | input hstep => exact h.input hstep hguard
  | thread hstep => exact h.thread hstep

/-! ## A session that is not spared -/

section
variable (portDefault) {olds : List ThreadPc} {k : Nat}

theorem left_destroys (hthreads : t.threads = .left k :: olds) :
    ∃ moves u, Run (ClientStep portDefault) t moves u ∧ u.calls = .destroy :: t.calls :=
  ⟨[.thread 0 true], { t with threads := .destroyed k :: olds, calls := .destroy :: t.calls },
    .single (.thread (by rw [threadStep, hthreads]; rfl)), rfl⟩

theorem listening_destroys (hthreads : t.threads = .listening k :: olds) :
    ∃ moves u, Run (ClientStep portDefault) t moves u ∧ u.calls = .destroy :: t.calls := by
  obtain ⟨moves, u, hrun, hcalls⟩ :=
    left_destroys portDefault (t := { t with threads := .left k :: olds }) rfl
  exact ⟨.thread 0 true :: moves, u,
    .cons (.thread (by rw [threadStep, hthreads]; rfl)) hrun, hcalls⟩

theorem started_destroys (hthreads : t.threads = .started k :: olds) :
    ∃ moves u, Run (ClientStep portDefault) t moves u ∧ u.calls = .destroy :: t.calls := by
  obtain ⟨moves, u, hrun, hcalls⟩ := listening_destroys portDefault
    (t := { t with threads := .listening k :: olds, isConnected := true }) rfl
  exact ⟨.thread 0 true :: moves, u,
    .cons (.thread (by rw [threadStep, hthreads]; rfl)) hrun, hcalls⟩

/-- A thread that holds a session comes to destroy it. -/
theorem holder_destroys (hholds : t.holds = some k) :
    ∃ moves u, Run (ClientStep portDefault) t moves u ∧ u.calls = .destroy :: t.calls := by
  cases hthreads : t.threads with
  | nil => rw [holds, hthreads] at hholds; cases hholds
  | cons th olds =>
    rw [holds_of_threads hthreads] at hholds
    cases th with
    | started k => exact started_destroys portDefault hthreads
    | listening k => exact listening_destroys portDefault hthreads
    | left k => exact left_destroys portDefault hthreads
    | _ => cases hholds

end

theorem unspared_destroyed_twice (h : Wf s) (hstep : ClientStep portDefault m s t)
    (hspares : ¬ s.Spares m) :
    ∃ moves u, Run (ClientStep portDefault) t moves u ∧ ¬ u.ReleasedOnce := by
  cases hstep with
  | typed _ _ => exact absurd trivial hspares
  | thread _ => exact absurd trivial hspares
  | input hstep =>
    simp only [Spares, not_forall] at hspares
    obtain ⟨connect, hpc, hheld⟩ := hspares
    obtain ⟨k, hk⟩ := Option.ne_none_iff_exists'.mp hheld
    simp only [inputStep, hpc, Option.some.injEq] at hstep
    subst hstep
    have hlt := heldSession_lt hk
    have hinput := releases_destroy_self hk
    rcases h.released k hlt with hholds | hpos
    · -- the thread is still to come
      obtain ⟨moves, u, hrun, hcalls⟩ := holder_destroys portDefault
        (t := { s with calls := .destroy :: s.calls, input := .clearing connect }) hholds
      refine ⟨moves, u, hrun, fun hone => ?_⟩
      have hle := hone.atMost k (by rw [hcalls]; exact hlt)
      have hthread : releases k u.calls = releases k (.destroy :: s.calls) + 1 := by
        rw [hcalls]
        exact releases_destroy_self hk
      omega
    · refine ⟨[], _, .nil _, fun hone => ?_⟩
      have hle := hone.atMost k hlt
      have htwice : 2 ≤ releases k (.destroy :: s.calls) := by omega
      exact absurd hle (Nat.not_le.mpr htwice)

/-- In a run in which the input thread spares the sessions each is destroyed
once; where it does not spare one, that one can come to be destroyed twice. -/
theorem client_releases_once (portDefault : Int32) (argHost : List UInt8) (argPort : Int32) :
    (∀ moves s, Run (guarded (ClientStep portDefault) Spares) (start argHost argPort) moves s →
      s.ReleasedOnce) ∧
    ∀ moves s m t, Run (ClientStep portDefault) (start argHost argPort) moves s →
      ClientStep portDefault m s t → ¬ s.Spares m →
      ∃ moves' u, Run (ClientStep portDefault) t moves' u ∧ ¬ u.ReleasedOnce :=
  ⟨fun _ _ hrun =>
      (hrun.invariant (I := Once) (fun _ _ _ => once_step) (once_start _ _)).releasedOnce,
    fun _ _ _ _ hrun hstep hspares => unspared_destroyed_twice (wf_run hrun) hstep hspares⟩

/-- The server hangs up on a client that has connected. -/
theorem client_releases_once_hangup : ReleasedOnce { online with
    threads := [.ended (some 0)], isConnected := false, calls := .destroy :: online.calls } := by
  have honline : Run (guarded (ClientStep defaultPort) Spares) (start [] 0) connectMoves online :=
    run_online (fun _ => trivial) (fun _ _ hpc connect he => absurd he (hpc connect))
      fun _ _ => trivial
  have hhangup : Run (guarded (ClientStep defaultPort) Spares) online
      [.thread 0 true, .thread 0 true, .thread 0 true] { online with
        threads := [.ended (some 0)], isConnected := false, calls := .destroy :: online.calls } :=
    .cons ⟨.thread rfl, trivial⟩ (.cons ⟨.thread rfl, trivial⟩ (.single ⟨.thread rfl, trivial⟩))
  exact (client_releases_once defaultPort [] 0).1 _ _ (honline.append hhangup)

/-- The user disconnects a client that has connected. -/
theorem client_releases_twice : ∃ s, Run (ClientStep defaultPort) (start [] 0)
    (connectMoves ++ [.typed (text "/disconnect"), .input true, .input true, .input true,
      .thread 0 true, .thread 0 true]) s ∧ ¬ s.ReleasedOnce := by
  have hdisconnect : processInput defaultPort (readLine 1024 (text "/disconnect")) =
      some .disconnect := by decide +kernel
  have honline : Run (ClientStep defaultPort) (start [] 0) connectMoves online :=
    (run_online (C := fun _ _ => True) (fun _ => trivial) (fun _ _ _ => trivial)
      fun _ _ => trivial).of_guarded
  refine ⟨_, honline.append (.cons (.typed rfl hdisconnect) <| .cons (.input rfl) <|
    .cons (.input rfl) <| .cons (.input rfl) <| .cons (.thread rfl) <| .single (.thread rfl)),
    fun hone => ?_⟩
  exact absurd (hone.atMost 0 (by decide)) (by decide)

end ClientState
end VhIM.Client
