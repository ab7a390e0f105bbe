import VhIM.Client.Threads

/-! # What holds in every interleaving

There is never more than one thread at work, and it is the newest. While it
works `is_connected` is set, but for the time in which the input thread has it
end. Each session opened is destroyed at least once, if not yet then by the
thread that opened it. -/
namespace VhIM.Client
open VhIM.Lib.Runs VhIM.Utility

/-! ## Where the threads stand -/

def ThreadPc.live : ThreadPc → Bool
  | .ended _ => false
  | _ => true

/-- The session that the thread is yet to destroy. -/
def ThreadPc.holds : ThreadPc → Option Nat
  | .started k | .listening k | .left k => some k
  | _ => none

inductive Phase where
  | free
  /-- It has called `client_ch_destroy` and waits for the thread to end. -/
  | releasing
  /-- It is about to create a thread, or has failed to. -/
  | creating
  deriving DecidableEq

def InputPc.phase : InputPc → Phase
  | .clearing _ | .joining _ => .releasing
  | .setting | .creating | .exited => .creating
  | _ => .free

/-- What `client_ch_send` is about to be called with. -/
def InputPc.pending : InputPc → Option Request
  | .sending r => some r
  | .farewell _ => some .disconnect
  | _ => none

def InputPc.asks : InputPc → Bool
  | .asking _ | .testing _ => true
  | _ => false

/-- A call of `client_ch_destroy` more does not take back one. -/
theorem releases_le_destroy (k : Nat) (calls : List Call) :
    releases k calls ≤ releases k (.destroy :: calls) := Nat.le_add_right _ _

namespace ClientState

/-- The newest thread has not ended. -/
def live (s : ClientState) : Bool := s.threads.head?.any ThreadPc.live

def holds (s : ClientState) : Option Nat := s.threads.head?.bind ThreadPc.holds

structure Wf (s : ClientState) : Prop where
  older : ∀ pc ∈ s.threads.tail, pc.live = false
  flagged : s.live = true → s.isConnected = true ∨ s.input.phase = .releasing
  connected : s.isConnected = true → s.live = true ∨ s.input.phase = .creating
  alone : s.input.phase = .creating → s.live = false
  announced : s.input = .creating → s.isConnected = true
  holds_of_up : sessionUp s.calls = true → s.holds.isSome = true
  up_of_holds : s.holds.isSome = true → sessionUp s.calls = true ∨ s.input.phase = .releasing
  held : ∀ k, s.holds = some k → heldSession s.calls = some k
  released : ∀ k < opened s.calls, s.holds = some k ∨ 0 < releases k s.calls

theorem wf_start (argHost : List UInt8) (argPort : Int32) : Wf (start argHost argPort) := by
  constructor <;> simp [start, live, holds, sessionUp, opened, InputPc.phase]

variable {s t : ClientState} {ok : Bool} {pc : InputPc}

theorem holds_of_not_live (h : s.live = false) : s.holds = none := by
  unfold live at h
  unfold holds
  cases hhead : s.threads.head? with
  | none => rfl
  | some th =>
    rw [hhead, Option.any_some] at h
    cases th with
    | ended k => rfl
    | _ => cases h

/-- When nobody waits for it to end, a thread at work has `is_connected` set. -/
theorem Wf.idle_of_not_connected (h : Wf s) (hflag : ¬ s.isConnected = true)
    (hfree : s.input.phase = .free) : s.live = false := by
  cases hlive : s.live with
  | false => rfl
  | true =>
    rcases h.flagged hlive with h' | h'
    · exact absurd h' hflag
    · rw [hfree] at h'
      cases h'

theorem Wf.ended_of_not_live (h : Wf s) (hlive : s.live = false) :
    ∀ th ∈ s.threads, th.live = false := by
  intro th hth
  cases hthreads : s.threads with
  | nil => rw [hthreads] at hth; cases hth
  | cons newest olds =>
    rw [hthreads] at hth
    rcases List.mem_cons.mp hth with rfl | hth
    · rw [live, hthreads] at hlive
      exact hlive
    · exact h.older th (by rw [hthreads]; exact hth)

/-! ## The input thread -/

/-- The input thread goes on within a phase. -/
theorem Wf.move (h : Wf s) (hphase : pc.phase = s.input.phase) (hpc : pc ≠ .creating) :
    Wf { s with input := pc } where
  older := h.older
  flagged hlive := by rw [hphase]; exact h.flagged hlive
  connected hflag := by rw [hphase]; exact h.connected hflag
  alone hcreating := h.alone (hphase ▸ hcreating)
  announced he := absurd he hpc
  holds_of_up := h.holds_of_up
  up_of_holds hholds := by rw [hphase]; exact h.up_of_holds hholds
  held := h.held
  released := h.released

/-- With no thread at work it may go anywhere. -/
theorem Wf.turn (h : Wf s) (hlive : s.live = false)
    (hflag : s.isConnected = true → pc.phase = .creating) (hpc : pc ≠ .creating) :
    Wf { s with input := pc } where
  older := h.older
  flagged hlive' := absurd (hlive.symm.trans hlive') Bool.false_ne_true
  connected hflag' := .inr (hflag hflag')
  alone _ := hlive
  announced he := absurd he hpc
  holds_of_up := h.holds_of_up
  up_of_holds hholds := by
    rw [show holds { s with input := pc } = none from holds_of_not_live hlive] at hholds
    cases hholds
  held := h.held
  released := h.released

theorem Wf.send (h : Wf s) (r : Request) : Wf { s with calls := .send r :: s.calls } :=
  ⟨h.older, h.flagged, h.connected, h.alone, h.announced, h.holds_of_up, h.up_of_holds, h.held,
    h.released⟩

theorem Wf.act (h : Wf s) (hinput : s.input = .reading) (a : Action) : Wf (s.act a) := by
  cases a with
  | request r => exact h.move (by rw [hinput]; rfl) nofun
  | say msg => exact h.move (by rw [hinput]; rfl) nofun
  | disconnect => exact h.move (by rw [hinput]; rfl) nofun
  | nothing => exact h
  | connect host port =>
    have hm : Wf { s with input := .testing true } := h.move (by rw [hinput]; rfl) nofun
    exact ⟨hm.older, hm.flagged, hm.connected, hm.alone, hm.announced, hm.holds_of_up,
      hm.up_of_holds, hm.held, hm.released⟩

theorem next_ne_creating (connect : Bool) : InputPc.next connect ≠ .creating := by
  cases connect <;> nofun

/-- `client_disconnect` destroys what the thread may hold. -/
theorem Wf.disconnects (h : Wf s) {connect : Bool} (hpc : s.input = .destroying connect) :
    Wf { s with input := .clearing connect, calls := .destroy :: s.calls } where
  older := h.older
  flagged _ := .inr rfl
  connected hflag := (h.connected hflag).imp_right fun h' => by rw [hpc] at h'; cases h'
  alone := nofun
  announced := nofun
  holds_of_up := nofun
  up_of_holds _ := .inr rfl
  held := h.held
  released k hk := (h.released k hk).imp_right fun h' => h'.trans_le (releases_le_destroy k _)

/-- And then waits for it. -/
theorem Wf.waits (h : Wf s) (connect : Bool) :
    Wf { s with input := .joining connect, isConnected := false } where
  older := h.older
  flagged _ := .inr rfl
  connected := nofun
  alone := nofun
  announced := nofun
  holds_of_up := h.holds_of_up
  up_of_holds _ := .inr rfl
  held := h.held
  released := h.released

/-- `client_connect` sets `is_connected` before there is a thread. -/
theorem Wf.announces (h : Wf s) (hpc : s.input = .setting) :
    Wf { s with input := .creating, isConnected := true } where
  older := h.older
  flagged _ := .inl rfl
  connected _ := .inr rfl
  alone _ := h.alone (by rw [hpc]; rfl)
  announced _ := rfl
  holds_of_up := h.holds_of_up
  up_of_holds hholds := (h.up_of_holds hholds).imp_right fun h' => by rw [hpc] at h'; cases h'
  held := h.held
  released := h.released

/-- And then creates it. -/
theorem Wf.creates (h : Wf s) (hpc : s.input = .creating) : Wf { s with
    calls := .create :: s.calls, threads := .starting :: s.threads, input := .reading } where
  older := h.ended_of_not_live (h.alone (by rw [hpc]; rfl))
  flagged _ := .inl (h.announced hpc)
  connected _ := .inl rfl
  alone := nofun
  announced := nofun
  holds_of_up := nofun
  up_of_holds := nofun
  held := nofun
  released k hk := (h.released k hk).imp_left fun h' => by
    rw [holds_of_not_live (h.alone (by rw [hpc]; rfl))] at h'
    cases h'

theorem wf_inputStep (h : Wf s) (hstep : s.inputStep ok = some t) : Wf t := by
  cases hpc : s.input with
  | reading | exited => simp [inputStep, hpc] at hstep
  | asking msg =>
    simp only [inputStep, hpc, Option.some.injEq] at hstep
    subst hstep
    split
    · exact h.move (by rw [hpc]; rfl) nofun
    · exact h.move (by rw [hpc]; rfl) nofun
  | sending r =>
    simp only [inputStep, hpc, Option.some.injEq] at hstep
    subst hstep
    exact (h.send r).move (by rw [hpc]; rfl) nofun
  | testing connect =>
    simp only [inputStep, hpc, Option.some.injEq] at hstep
    subst hstep
    split
    · exact h.move (by rw [hpc]; rfl) nofun
    · next hflag =>
      exact h.turn (h.idle_of_not_connected hflag (by rw [hpc]; rfl)) (absurd · hflag)
        (next_ne_creating connect)
  | farewell connect =>
    simp only [inputStep, hpc, Option.some.injEq] at hstep
    subst hstep
    exact (h.send .disconnect).move (by rw [hpc]; rfl) nofun
  | destroying connect =>
    simp only [inputStep, hpc, Option.some.injEq] at hstep
    subst hstep
    exact h.disconnects hpc
  | clearing connect =>
    simp only [inputStep, hpc, Option.some.injEq] at hstep
    subst hstep
    exact h.waits connect
  | joining connect =>
    simp only [inputStep, hpc] at hstep
    split at hstep
    · next k olds hthreads =>
      cases hstep
      have hlive : s.live = false := by rw [live, hthreads]; rfl
      refine h.turn hlive (fun hflag => ?_) (next_ne_creating connect)
      rcases h.connected hflag with h' | h'
      · exact absurd (hlive.symm.trans h') Bool.false_ne_true
      · rw [hpc] at h'; cases h'
    · cases hstep
  | setting =>
    simp only [inputStep, hpc, Option.some.injEq] at hstep
    subst hstep
    exact h.announces hpc
  | creating =>
    simp only [inputStep, hpc] at hstep
    split at hstep
    · cases hstep
      exact h.creates hpc
    · cases hstep
      exact h.turn (h.alone (by rw [hpc]; rfl)) (fun _ => rfl) nofun

/-- What the input thread can do on its way to the next line: it decides to
send only by a question answered with yes. -/
inductive Proceed (s : ClientState) : ClientState → Prop
  | turn (pc : InputPc) (flag : Bool) :
      (pc.pending.isSome = true → s.input.asks = true ∧ s.isConnected = true) →
      Proceed s { s with input := pc, isConnected := flag }
  | send (r : Request) (pc : InputPc) : s.input.pending = some r → pc.pending = none →
      Proceed s { s with input := pc, calls := .send r :: s.calls }
  | destroy (connect : Bool) : s.input = .destroying connect →
      Proceed s { s with input := .clearing connect, calls := .destroy :: s.calls }
  | create : s.input = .creating → Proceed s { s with
      input := .reading, threads := .starting :: s.threads, calls := .create :: s.calls }

theorem next_pending (connect : Bool) : (InputPc.next connect).pending = none := by
  cases connect <;> rfl

theorem proceed_of_inputStep (hstep : s.inputStep ok = some t) : Proceed s t := by
  cases hpc : s.input with
  | reading | exited => simp [inputStep, hpc] at hstep
  | asking msg =>
    simp only [inputStep, hpc, Option.some.injEq] at hstep
    subst hstep
    refine .turn _ s.isConnected fun hsome => ⟨by rw [hpc]; rfl, ?_⟩
    by_contra hflag
    rw [if_neg hflag] at hsome
    cases hsome
  | testing connect =>
    simp only [inputStep, hpc, Option.some.injEq] at hstep
    subst hstep
    refine .turn _ s.isConnected fun hsome => ⟨by rw [hpc]; rfl, ?_⟩
    by_contra hflag
    rw [if_neg hflag, next_pending] at hsome
    cases hsome
  | sending r | farewell connect =>
    simp only [inputStep, hpc, Option.some.injEq] at hstep
    subst hstep
    exact .send _ _ (by rw [hpc]; rfl) rfl
  | destroying connect =>
    simp only [inputStep, hpc, Option.some.injEq] at hstep
    subst hstep
    exact .destroy connect hpc
  | clearing connect | setting =>
    simp only [inputStep, hpc, Option.some.injEq] at hstep
    subst hstep
    exact .turn _ _ nofun
  | joining connect =>
    simp only [inputStep, hpc] at hstep
    split at hstep
    · cases hstep
      exact .turn _ s.isConnected fun hsome => by simp [next_pending] at hsome
    · cases hstep
  | creating =>
    simp only [inputStep, hpc] at hstep
    split at hstep
    · cases hstep
      exact .create hpc
    · cases hstep
      exact .turn _ s.isConnected nofun

/-! ## The connection threads -/

/-- What the newest thread can do, with `olds` the threads before it. -/
inductive Advance (s : ClientState) (olds : List ThreadPc) : ThreadPc → ClientState → Prop
  | start (ok : Bool) : Advance s olds .starting { s with
      threads := (if ok then .started (opened s.calls) else .refused) :: olds
      calls := .start s.argHost s.argPort ok :: s.calls }
  | refuse : Advance s olds .refused
      { s with threads := .ended none :: olds, isConnected := false }
  | connected (k : Nat) : Advance s olds (.started k)
      { s with threads := .listening k :: olds, isConnected := true }
  | leave (k : Nat) : Advance s olds (.listening k) { s with threads := .left k :: olds }
  | destroy (k : Nat) : Advance s olds (.left k)
      { s with threads := .destroyed k :: olds, calls := .destroy :: s.calls }
  | finish (k : Nat) : Advance s olds (.destroyed k)
      { s with threads := .ended (some k) :: olds, isConnected := false }

theorem Wf.newest_of_live (h : Wf s) {i : Nat} {th : ThreadPc} (hth : s.threads[i]? = some th)
    (hlive : th.live = true) : i = 0 ∧ ∃ olds, s.threads = th :: olds := by
  cases hthreads : s.threads with
  | nil => rw [hthreads] at hth; cases hth
  | cons newest olds =>
    rw [hthreads] at hth
    cases i with
    | zero =>
      cases hth
      exact ⟨rfl, olds, rfl⟩
    | succ i =>
      have hold := h.older th (by rw [hthreads]; exact List.mem_of_getElem? hth)
      rw [hold] at hlive
      cases hlive

/-- Only the newest thread has a step to take. -/
theorem Wf.advance (h : Wf s) {i : Nat} (hstep : s.threadStep i ok = some t) :
    i = 0 ∧ ∃ th olds, s.threads = th :: olds ∧ Advance s olds th t := by
  cases hth : s.threads[i]? with
  | none => simp [threadStep, hth] at hstep
  | some th =>
    cases hlive : th.live with
    | false =>
      cases th with
      | ended k => simp [threadStep, hth] at hstep
      | _ => cases hlive
    | true =>
      obtain ⟨rfl, olds, hthreads⟩ := h.newest_of_live hth hlive
      refine ⟨rfl, th, olds, hthreads, ?_⟩
      have hset : ∀ th', s.threads.set 0 th' = th' :: olds := fun th' => by rw [hthreads]; rfl
      simp only [threadStep, hth, hset] at hstep
      cases th with
      | starting => cases hstep; exact .start ok
      | refused => cases hstep; exact .refuse
      | started k => cases hstep; exact .connected k
      | listening k => cases hstep; exact .leave k
      | left k => cases hstep; exact .destroy k
      | destroyed k => cases hstep; exact .finish k
      | ended k => cases hlive

section
variable {th : ThreadPc} {olds : List ThreadPc}

theorem live_of_threads (hthreads : s.threads = th :: olds) : s.live = th.live := by
  rw [live, hthreads]
  rfl

theorem holds_of_threads (hthreads : s.threads = th :: olds) : s.holds = th.holds := by
  rw [holds, hthreads]
  rfl

theorem Wf.older_of_threads (h : Wf s) (hthreads : s.threads = th :: olds) :
    ∀ pc ∈ olds, pc.live = false := by
  have hold := h.older
  rw [hthreads] at hold
  exact hold

/-- While a thread is at work none is created. -/
theorem Wf.not_creating (h : Wf s) (hthreads : s.threads = th :: olds) (hlive : th.live = true) :
    s.input.phase ≠ .creating := by
  intro hc
  have hdead := h.alone hc
  rw [live_of_threads hthreads, hlive] at hdead
  cases hdead

/-- A thread goes on with its session, if it has one. -/
theorem Wf.keep (h : Wf s) (hthreads : s.threads = th :: olds) (hlive : th.live = true)
    (th' : ThreadPc) (hlive' : th'.live = true) (hholds : th'.holds = th.holds) {flag : Bool}
    (hflag : s.isConnected = true → flag = true) :
    Wf { s with threads := th' :: olds, isConnected := flag } := by
  have hs : s.holds = th'.holds := (holds_of_threads hthreads).trans hholds.symm
  have hwork : s.live = true := (live_of_threads hthreads).trans hlive
  exact {
    older := h.older_of_threads hthreads
    flagged := fun _ => (h.flagged hwork).imp_left hflag
    connected := fun _ => .inl hlive'
    alone := fun hc => absurd hc (h.not_creating hthreads hlive)
    announced := fun hc => hflag (h.announced hc)
    holds_of_up := fun hup => (congrArg Option.isSome hs).symm.trans (h.holds_of_up hup)
    up_of_holds := fun hsome => h.up_of_holds ((congrArg Option.isSome hs).trans hsome)
    held := fun k hk => h.held k (hs.trans hk)
    released := fun k hk => (h.released k hk).imp_left (hs.symm.trans ·) }

/-- A thread that holds nothing ends. -/
theorem Wf.finish (h : Wf s) (hthreads : s.threads = th :: olds) (hlive : th.live = true)
    (hholds : th.holds = none) (k : Option Nat) :
    Wf { s with threads := .ended k :: olds, isConnected := false } := by
  have hs : s.holds = none := (holds_of_threads hthreads).trans hholds
  exact {
    older := h.older_of_threads hthreads
    flagged := nofun
    connected := nofun
    alone := fun _ => rfl
    announced := fun hc => absurd (congrArg InputPc.phase hc) (h.not_creating hthreads hlive)
    holds_of_up := fun hup => by
      have hsome := h.holds_of_up hup
      rw [hs] at hsome
      cases hsome
    up_of_holds := nofun
    held := nofun
    released := fun k hk => (h.released k hk).imp_left fun hsome => by
      rw [hs] at hsome
      cases hsome }

end

/-- A session is opened, or not. -/
theorem Wf.opens (h : Wf s) {olds : List ThreadPc} (hthreads : s.threads = .starting :: olds)
    (ok : Bool) : Wf { s with
      threads := (if ok then .started (opened s.calls) else .refused) :: olds
      calls := .start s.argHost s.argPort ok :: s.calls } := by
  have hs : s.holds = none := holds_of_threads hthreads
  have hwork : s.live = true := live_of_threads hthreads
  have hreleased : ∀ k < opened s.calls, 0 < releases k s.calls := fun k hk =>
    (h.released k hk).resolve_left (by rw [hs]; nofun)
  cases ok with
  | true => exact {
      older := h.older_of_threads hthreads
      flagged := fun _ => h.flagged hwork
      connected := fun _ => .inl rfl
      alone := fun hc => absurd hc (h.not_creating hthreads rfl)
      announced := h.announced
      holds_of_up := fun _ => rfl
      up_of_holds := fun _ => .inl rfl
      held := fun k hk => hk
      released := fun k hk => by
        rcases Nat.lt_succ_iff_lt_or_eq.mp hk with hlt | rfl
        · exact .inr (hreleased k hlt)
        · exact .inl rfl }
  | false => exact {
      older := h.older_of_threads hthreads
      flagged := fun _ => h.flagged hwork
      connected := fun _ => .inl rfl
      alone := fun hc => absurd hc (h.not_creating hthreads rfl)
      announced := h.announced
      holds_of_up := nofun
      up_of_holds := nofun
      held := nofun
      released := fun k hk => .inr (hreleased k hk) }

/-- The thread destroys the session it holds. -/
theorem Wf.destroys (h : Wf s) {k : Nat} {olds : List ThreadPc}
    (hthreads : s.threads = .left k :: olds) :
    Wf { s with threads := .destroyed k :: olds, calls := .destroy :: s.calls } := by
  have hs : s.holds = some k := holds_of_threads hthreads
  have hwork : s.live = true := live_of_threads hthreads
  exact {
    older := h.older_of_threads hthreads
    flagged := fun _ => h.flagged hwork
    connected := fun _ => .inl rfl
    alone := fun hc => absurd hc (h.not_creating hthreads rfl)
    announced := h.announced
    holds_of_up := nofun
    up_of_holds := nofun
    held := nofun
    released := fun j hj => by
      right
      rcases h.released j hj with hheld | hpos
      · have hj := h.held j hheld
        simp [releases, hj]
      · exact hpos.trans_le (releases_le_destroy j _) }

theorem wf_threadStep (h : Wf s) {i : Nat} (hstep : s.threadStep i ok = some t) : Wf t := by
  obtain ⟨-, th, olds, hthreads, hadv⟩ := h.advance hstep
  cases hadv with
  | start ok => exact h.opens hthreads ok
  | refuse => exact h.finish hthreads rfl rfl none
  | connected k => exact h.keep hthreads rfl (.listening k) rfl rfl fun _ => rfl
  | leave k => exact h.keep hthreads rfl (.left k) rfl rfl id
  | destroy k => exact h.destroys hthreads
  | finish k => exact h.finish hthreads rfl rfl (some k)

/-! ## Every run -/

theorem wf_step {portDefault : Int32} {m : Move} (h : Wf s) (hstep : ClientStep portDefault m s t) :
    Wf t := by
  cases hstep with
  | typed hinput _ => exact h.act hinput _
  | input hstep => exact wf_inputStep h hstep
  | thread hstep => exact wf_threadStep h hstep

theorem wf_run {portDefault : Int32} {argHost : List UInt8} {argPort : Int32} {moves : List Move}
    (hrun : Run (ClientStep portDefault) (start argHost argPort) moves s) : Wf s :=
  hrun.invariant (fun _ _ _ => wf_step) (wf_start argHost argPort)

/-! ## A connection -/

/-- A client that has connected to the default host. -/
def online : ClientState :=
  ⟨.reading, [.listening 0], true, text "vhelium.com", defaultPort,
    [.start (text "vhelium.com") defaultPort true, .create]⟩

def connectMoves : List Move :=
  [.typed (text "/connect"), .input true, .input true, .input true, .thread 0 true, .thread 0 true]

theorem processInput_connect : processInput defaultPort (readLine 1024 (text "/connect")) =
    some (.connect none defaultPort) := by decide +kernel

/-- The steps of a connection, under any condition on steps that these meet. -/
theorem run_online {C : Move → ClientState → Prop}
    (htyped : ∀ s, C (.typed (text "/connect")) s)
    (hinput : ∀ s, (s.input.asks = true → s.isConnected = false) →
      (∀ connect, s.input ≠ .destroying connect) → C (.input true) s)
    (hthread : ∀ s, s.holds.isSome = false ∨ s.threads = [.started 0] → C (.thread 0 true) s) :
    Run (guarded (ClientStep defaultPort) C) (start [] 0) connectMoves online := by
  refine .cons ⟨.typed rfl processInput_connect, htyped _⟩ ?_
  refine .cons ⟨.input rfl, hinput _ (fun _ => rfl) (by decide)⟩ ?_
  refine .cons ⟨.input rfl, hinput _ (by decide) (by decide)⟩ ?_
  refine .cons ⟨.input rfl, hinput _ (by decide) (by decide)⟩ ?_
  refine .cons ⟨.thread rfl, hthread _ (.inl rfl)⟩ ?_
  exact .single ⟨.thread rfl, hthread _ (.inr rfl)⟩

end ClientState
end VhIM.Client
