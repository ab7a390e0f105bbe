import VhIM.Lib.Runs
import VhIM.Network.ByteProcessor

/-! # The rest buffer the clients share

`server_ch_listen` has one `rest_buffer` for all sockets. Its reads, as far as
packet assembly goes: each calls `bp_process_data` on what was read from one
client, with whatever the reads before left in the buffer. -/
namespace VhIM.Server
open VhIM.Lib.Runs VhIM.Network

variable {κ : Type}

/-- Data read from one client: at most a buffer, and never nothing. `junk` is
what `total_data` holds in the turns of the call. -/
structure Read (κ : Type) where
  sender : κ
  chunk : List UInt8
  junk : Nat → Nat → UInt8

/-- The shared buffer, what `cb_msg_rcv` got with which sender, and whose data
was read last. -/
structure Assembly (κ : Type) where
  rest : List UInt8
  handed : List (κ × List UInt8)
  last : Option κ

def Assembly.start : Assembly κ := ⟨[], [], none⟩

/-- One read whose call of `bp_process_data` returns. -/
def readStep (r : Read κ) (s t : Assembly κ) : Prop :=
  r.chunk ≠ [] ∧ r.chunk.length ≤ 1024 ∧ ∃ fuel code rest out,
    bpProcessData collect r.junk r.chunk fuel 0 s.rest [] = some (.returned code rest out) ∧
      t = ⟨rest, s.handed ++ out.map (r.sender, ·), some r.sender⟩

/-- The buffer a read finds is empty or was left by the same client's read. -/
def OwnBuffer (r : Read κ) (s : Assembly κ) : Prop := s.rest = [] ∨ s.last = some r.sender

/-- Feeding a client's reads has one outcome. -/
theorem readStep_det {r : Read κ} {s t t' : Assembly κ} (h : readStep r s t)
    (h' : readStep r s t') : t = t' := by
  obtain ⟨_, _, fuel, code, rest, out, hcall, rfl⟩ := h
  obtain ⟨_, _, fuel', code', rest', out', hcall', rfl⟩ := h'
  have hm := bpProcessData_mono hcall (Nat.le_max_left fuel fuel')
  rw [bpProcessData_mono hcall' (Nat.le_max_right fuel fuel')] at hm
  cases hm
  rfl

theorem readRun_det {rs : List (Read κ)} {s t t' : Assembly κ} (h : Run readStep s rs t)
    (h' : Run readStep s rs t') : t = t' := by
  induction h with
  | nil _ => cases h'; rfl
  | cons h1 _ ih =>
    cases h' with
    | cons h1' h2' =>
      cases readStep_det h1 h1'
      exact ih h2'

variable [DecidableEq κ]

/-- The packets handed over with `a` as their sender. -/
def Assembly.packetsOf (s : Assembly κ) (a : κ) : List (List UInt8) :=
  (s.handed.filter (fun e => e.1 = a)).map Prod.snd

def readsOf (a : κ) (rs : List (Read κ)) : List (Read κ) := rs.filter (fun r => r.sender = a)

theorem packetsOf_append (s : Assembly κ) (a b : κ) (rest : List UInt8)
    (out : List (List UInt8)) (last : Option κ) :
    (Assembly.mk rest (s.handed ++ out.map (b, ·)) last).packetsOf a =
      s.packetsOf a ++ if b = a then out else [] := by
  simp only [Assembly.packetsOf, List.filter_append, List.map_append]
  congr 1
  split
  · next h => simp [List.filter_map, Function.comp_def, h]
  · next h => simp [List.filter_map, Function.comp_def, h]

/-- `s` is what the interleaving has reached, `sa` what `a`'s own reads have. -/
structure Agrees (a : κ) (s sa : Assembly κ) : Prop where
  packets : sa.packetsOf a = s.packetsOf a
  empty : s.rest = [] → sa.rest = []
  own : s.last = some a → sa.rest = s.rest

theorem Agrees.rest_eq {a : κ} {r : Read κ} {s sa : Assembly κ} (h : Agrees a s sa)
    (ha : r.sender = a) (ho : OwnBuffer r s) : sa.rest = s.rest := by
  rcases ho with ho | ho
  · rw [ho, h.empty ho]
  · exact h.own (by rw [ho, ha])

/-- A read of `a` itself does the same alone. -/
theorem agrees_own {a : κ} {r : Read κ} {s t sa : Assembly κ} (h : Agrees a s sa)
    (ha : r.sender = a) (ho : OwnBuffer r s) (hr : readStep r s t) :
    ∃ ta, readStep r sa ta ∧ Agrees a t ta := by
  obtain ⟨hne, hle, fuel, code, rest, out, hcall, rfl⟩ := hr
  rw [← h.rest_eq ha ho] at hcall
  refine ⟨_, ⟨hne, hle, fuel, code, rest, out, hcall, rfl⟩, ?_, fun he => he, fun _ => rfl⟩
  rw [packetsOf_append, packetsOf_append, h.packets]

/-- A read of another client is not noticed by `a`. -/
theorem agrees_other {a : κ} {r : Read κ} {s t sa : Assembly κ} (h : Agrees a s sa)
    (ha : r.sender ≠ a) (hr : readStep r s t) : Agrees a t sa := by
  obtain ⟨hne, _, fuel, code, rest, out, hcall, rfl⟩ := hr
  refine ⟨?_, ?_, fun he => absurd (Option.some.inj he) ha⟩
  · rw [packetsOf_append, if_neg ha, List.append_nil, h.packets]
  · intro he
    subst he
    exact h.empty (bpProcessData_empties hne hcall).1

theorem agrees_run {a : κ} {rs : List (Read κ)} {s t sa : Assembly κ}
    (hr : Run (guarded readStep OwnBuffer) s rs t) (h : Agrees a s sa) :
    ∃ ta, Run readStep sa (readsOf a rs) ta ∧ Agrees a t ta := by
  induction hr generalizing sa with
  | nil s => exact ⟨sa, .nil sa, h⟩
  | @cons r s m t rs h1 _ ih =>
    by_cases ha : r.sender = a
    · obtain ⟨ma, hstep, hm⟩ := agrees_own h ha h1.2 h1.1
      obtain ⟨ta, hrun, ht⟩ := ih hm
      refine ⟨ta, ?_, ht⟩
      rw [readsOf, List.filter_cons_of_pos (by simpa using ha)]
      exact .cons hstep hrun
    · obtain ⟨ta, hrun, ht⟩ := ih (agrees_other h ha h1.1)
      refine ⟨ta, ?_, ht⟩
      rw [readsOf, List.filter_cons_of_neg (by simpa using ha)]
      exact hrun

/-- What the interleaving hands over from `a` is what `a`'s reads alone give,
from an empty buffer: they all return, and with these packets. -/
def Undisturbed (a : κ) (rs : List (Read κ)) (t : Assembly κ) : Prop :=
  (∃ ta, Run readStep .start (readsOf a rs) ta) ∧
    ∀ ta, Run readStep .start (readsOf a rs) ta → ta.packetsOf a = t.packetsOf a

/-- Clients do not interfere as long as no read finds bytes that another
client left in the shared buffer. -/
theorem clients_undisturbed {rs : List (Read κ)} {t : Assembly κ}
    (hr : Run (guarded readStep OwnBuffer) .start rs t) (a : κ) : Undisturbed a rs t := by
  have hstart : Agrees a Assembly.start Assembly.start := ⟨rfl, fun _ => rfl, fun _ => rfl⟩
  obtain ⟨ta, hrun, hagree⟩ := agrees_run hr hstart
  refine ⟨⟨ta, hrun⟩, ?_⟩
  intro ta' hrun'
  rw [← readRun_det hrun hrun']
  exact hagree.packets

theorem clients_undisturbed_whole :
    Undisturbed 0 [⟨1, [0, 0, 0, 5, 7], fun _ _ => 0⟩, ⟨0, [0, 0, 0, 6, 8, 9], fun _ _ => 0⟩]
      ⟨[], [(1, [0, 0, 0, 5, 7]), (0, [0, 0, 0, 6, 8, 9])], some 0⟩ :=
  clients_undisturbed
    (.cons ⟨⟨by decide, by decide, 1, 1, [], [[0, 0, 0, 5, 7]], rfl, rfl⟩, .inl rfl⟩
      (.cons ⟨⟨by decide, by decide, 1, 1, [], [[0, 0, 0, 6, 8, 9]], rfl, rfl⟩, .inl rfl⟩
        (.nil _))) 0

/-- Half a header from client 1, then a whole packet from client 0: the packet
attributed to 0 starts with the bytes of 1. -/
def mixedReads : List (Read Nat) :=
  [⟨1, [0, 0, 0, 12], fun _ _ => 0⟩, ⟨0, [0, 0, 0, 8, 0, 0, 0, 6], fun _ _ => 0⟩]

theorem shared_buffer_mixes : ∃ t, Run readStep .start mixedReads t ∧
    t.packetsOf 0 = [[0, 0, 0, 12, 0, 0, 0, 0, 0, 0, 0, 0]] ∧ ¬ Undisturbed 0 mixedReads t := by
  have hrun : Run readStep .start mixedReads
      ⟨[0, 0, 0, 12], [(0, [0, 0, 0, 12, 0, 0, 0, 0, 0, 0, 0, 0])], some 0⟩ :=
    .cons ⟨by decide, by decide, 1, 1, [0, 0, 0, 12], [], rfl, rfl⟩
      (.cons ⟨by decide, by decide, 1, 1, [0, 0, 0, 12],
        [[0, 0, 0, 12, 0, 0, 0, 0, 0, 0, 0, 0]], rfl, rfl⟩ (.nil _))
  have halone : Run readStep .start (readsOf 0 mixedReads)
      ⟨[], [(0, [0, 0, 0, 8, 0, 0, 0, 6])], some 0⟩ :=
    .cons ⟨by decide, by decide, 1, 1, [], [[0, 0, 0, 8, 0, 0, 0, 6]], rfl, rfl⟩ (.nil _)
  refine ⟨_, hrun, rfl, ?_⟩
  intro h
  exact absurd (h.2 _ halone) (by decide)

end VhIM.Server
