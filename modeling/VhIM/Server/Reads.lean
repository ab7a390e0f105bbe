import VhIM.Network.RestBuffer
import VhIM.Server.Scan
import VhIM.Server.SharedBuffer

/-! # The layers of the loop

A run of the main loop is a run of events, for the handlers, and a run of
reads, for packet assembly; the packets of the events are the packets that the
reads hand over. So what is proved of the events and of the reads is proved of
the loop. -/
namespace VhIM.Server
open VhIM.Lib VhIM.Lib.Runs VhIM.Network VhIM.Sql
open ServerState

/-- The call of `bp_process_data` found `start`, and its turns so far have left
`rest` and handed over `out`: however the turns to come end it, so it ends. -/
def Continues (data start : List UInt8) (turn : Nat) (rest : List UInt8)
    (out : List (List UInt8)) : Prop :=
  ∀ junk fuel code rest' out',
    bpProcessData collect junk data fuel turn rest out = some (.returned code rest' out') →
      ∃ junk fuel,
        bpProcessData collect junk data fuel 0 start [] = some (.returned code rest' out')

theorem Continues.again {data start rest rest' : List UInt8} {turn : Nat}
    {out out' : List (List UInt8)} {junk : Nat → UInt8} (h : Continues data start turn rest out)
    (hstep : bpStep collect junk data rest out = .again rest' out') :
    Continues data start (turn + 1) rest' out' := by
  intro junk' fuel code rest'' out'' hcall
  -- the array of this turn, then those of the turns to come
  have hlater : ∀ k, turn + 1 ≤ k → junk' k = Function.update junk' turn junk k := by
    intro k hk
    rw [Function.update_of_ne (by omega)]
  refine h (Function.update junk' turn junk) (fuel + 1) code rest'' out'' ?_
  rw [bpProcessData_congr hlater] at hcall
  simp only [bpProcessData, Function.update_self, hstep]
  exact hcall

theorem Continues.returned {data start rest rest' : List UInt8} {turn : Nat} {code : Int32}
    {out out' : List (List UInt8)} {junk : Nat → UInt8} (h : Continues data start turn rest out)
    (hstep : bpStep collect junk data rest out = .returned code rest' out') :
    ∃ junk fuel, bpProcessData collect junk data fuel 0 start [] =
      some (.returned code rest' out') := by
  refine h (fun _ => junk) 1 code rest' out' ?_
  simp only [bpProcessData, hstep]

variable {lib : Externals} {s₀ s t : ServerState} {inp : Input} {l l' : Listen}

end VhIM.Server
