import VhIM.Network.ByteProcessor

/-! # Reassembly of a stream of packets

The reads of one socket, fed to `bp_process_data` one after the other as the
client's `client_ch_listen` does, from an empty rest buffer. -/
namespace VhIM.Network
open VhIM.Lib

/-- A packet as the peer sends it: its own length in its first four bytes, and
no larger than a read. -/
structure ValidPacket (p : List UInt8) : Prop where
  pos : 4 < p.length
  le : p.length ≤ restCapacity
  size : p.take 4 = bcFromInt (Int32.ofNat p.length)

/-- `chunks` are reads of the concatenation of `packets`. -/
structure Cut (packets chunks : List (List UInt8)) : Prop where
  read : ∀ c ∈ chunks, c ≠ [] ∧ c.length ≤ restCapacity
  stream : chunks.flatten = packets.flatten

/-- The calls of `bp_process_data` on the chunks in order, as long as each
returns 1: the rest buffer at the end and the packets handed over. `junk` is
what `total_data` holds, by call and turn. -/
def feed (junk : Nat → Nat → Nat → UInt8) (fuel : Nat) :
    List (List UInt8) → Nat → List UInt8 → List (List UInt8) →
      Option (List UInt8 × List (List UInt8))
  | [], _, restBuffer, out => some (restBuffer, out)
  | c :: cs, call, restBuffer, out =>
    match bpProcessData collect (junk call) c fuel 0 restBuffer out with
    | some (.returned code rest out) =>
      if code = 1 then feed junk fuel cs (call + 1) rest out else none
    | _ => none

/-- Every call returns 1, the callback gets exactly the packets in order, and
no rest is left, whatever the uninitialised arrays hold. -/
def ReassemblesExactly (packets chunks : List (List UInt8)) : Prop :=
  ∀ junk, ∃ fuel, feed junk fuel chunks 0 [] [] = some ([], packets)

/-- If no rest is left at the end, none was left at any time, and every chunk
went to the callback as it was. -/
theorem feed_empties {junk : Nat → Nat → Nat → UInt8} {fuel : Nat} {chunks : List (List UInt8)}
    (hne : ∀ c ∈ chunks, c ≠ []) {call : Nat} {restBuffer : List UInt8}
    {out out' : List (List UInt8)}
    (h : feed junk fuel chunks call restBuffer out = some ([], out')) :
    restBuffer = [] ∧ out' = out ++ chunks := by
  induction chunks generalizing call restBuffer out with
  | nil => cases h; exact ⟨rfl, by simp⟩
  | cons c cs ih =>
    simp only [feed] at h
    split at h
    · next code rest out1 hcall =>
      split at h
      · next hcode =>
        obtain ⟨rfl, rfl⟩ := ih (fun c hc => hne c (by simp [hc])) h
        obtain ⟨hrest, hcb⟩ := bpProcessData_empties (hne c (by simp)) hcall
        cases hcb hcode
        exact ⟨hrest, by simp⟩
      · cases h
    · cases h

theorem feed_packets (junk : Nat → Nat → Nat → UInt8) {packets : List (List UInt8)}
    (hp : ∀ p ∈ packets, ValidPacket p) (call : Nat) (out : List (List UInt8)) :
    feed junk 1 packets call [] out = some ([], out ++ packets) := by
  induction packets generalizing call out with
  | nil => simp [feed]
  | cons p ps ih =>
    have hv := hp p (by simp)
    have hle := hv.le
    have hturn : bpTurn (junk call 0) [] p = .whole p :=
      bpTurn_packet _ hv.pos.le (by simp only [restCapacity] at hle; omega) hv.size
    simp only [feed, bpProcessData, bpStep, hturn, collect, if_true]
    rw [ih (fun q hq => hp q (by simp [hq]))]
    simp

theorem reassemblesExactly_of_eq {packets : List (List UInt8)}
    (hp : ∀ p ∈ packets, ValidPacket p) : ReassemblesExactly packets packets :=
  fun junk => ⟨1, by simpa using feed_packets junk hp 0 []⟩

theorem eq_of_reassemblesExactly {packets chunks : List (List UInt8)}
    (hne : ∀ c ∈ chunks, c ≠ []) (h : ReassemblesExactly packets chunks) : chunks = packets := by
  obtain ⟨fuel, hf⟩ := h fun _ _ _ => 0
  simpa using (feed_empties hne hf).2.symm

/-- The stream is reassembled exactly when every read is one whole packet. -/
theorem reassembly_exact_iff {packets chunks : List (List UInt8)}
    (hp : ∀ p ∈ packets, ValidPacket p) (hcut : Cut packets chunks) :
    ReassemblesExactly packets chunks ↔ chunks = packets := by
  constructor
  · exact eq_of_reassemblesExactly fun c hc => (hcut.read c hc).1
  · rintro rfl
    exact reassemblesExactly_of_eq hp

/-- Two packets arrive when each is one read, and do not when both are. -/
theorem reassembly_exact_two :
    ReassemblesExactly [[0, 0, 0, 5, 7], [0, 0, 0, 6, 8, 9]]
        [[0, 0, 0, 5, 7], [0, 0, 0, 6, 8, 9]] ∧
      ¬ ReassemblesExactly [[0, 0, 0, 5, 7], [0, 0, 0, 6, 8, 9]]
        [[0, 0, 0, 5, 7, 0, 0, 0, 6, 8, 9]] := by
  have hp : ∀ p ∈ [[0, 0, 0, 5, 7], [0, 0, 0, 6, 8, 9]], ValidPacket p := by
    intro p hp
    obtain rfl | rfl : p = [0, 0, 0, 5, 7] ∨ p = [0, 0, 0, 6, 8, 9] := by simpa using hp
    · exact ⟨by decide, by decide, by decide⟩
    · exact ⟨by decide, by decide, by decide⟩
  have hone : Cut [[0, 0, 0, 5, 7], [0, 0, 0, 6, 8, 9]]
      [[0, 0, 0, 5, 7, 0, 0, 0, 6, 8, 9]] := ⟨by decide, rfl⟩
  constructor
  · exact (reassembly_exact_iff hp ⟨by decide, rfl⟩).mpr rfl
  · intro h
    exact absurd ((reassembly_exact_iff hp hone).mp h) (by decide)

/-- A packet of five bytes read in two pieces is not reassembled. -/
theorem reassembly_fails_on_split :
    (∀ p ∈ [[0, 0, 0, 5, 7]], ValidPacket p) ∧
      Cut [[0, 0, 0, 5, 7]] [[0, 0, 0, 5], [7]] ∧
      ¬ ReassemblesExactly [[0, 0, 0, 5, 7]] [[0, 0, 0, 5], [7]] := by
  refine ⟨?_, ⟨by decide, rfl⟩, ?_⟩
  · intro p hp
    cases List.mem_singleton.mp hp
    exact ⟨by decide, by decide, by decide⟩
  · intro h
    exact absurd (eq_of_reassemblesExactly (by decide) h) (by decide)

end VhIM.Network
