import VhIM.Client.ProcessPacket
import VhIM.Network.WireFormat

/-! # What the client reads

The layout of each message the client has a case for, as its reads define it,
and that it meets a reading fault exactly outside of it. -/
namespace VhIM.Client
open VhIM.Lib VhIM.Network VhIM.Utility
open VhIM.Server (ServerUserInfo)

def infosLayout (next : PacketLayout) : Nat → PacketLayout
  | 0 => next
  | n + 1 => .field .int fun _ => .field .string fun _ => infosLayout next n

def countedLayout (next : PacketLayout) : PacketLayout :=
  .field .int fun count => infosLayout next count.toInt.toNat

def caseLayout : Option MsgType → PacketLayout
  | some .welcome => .field .string fun _ => .done
  | some .authFailed => .field .string fun _ => .field .int fun _ => .done
  | some .broadcast => .field .string fun _ => .field .string fun _ => .done
  | some .systemMsg => .field .string fun _ => .done
  -- the case runs on into the next
  | some .registrSuccessful => .field .string fun _ => .field .string fun _ => .done
  | some .registrFailed => .field .string fun _ => .done
  | some .who => countedLayout .done
  | some .friends => countedLayout (countedLayout (countedLayout .done))
  | some .removeFriend => .field .int fun _ => .done
  | some .friendOnline => .field .int fun _ => .field .string fun _ => .done
  | some .friendOffline => .field .int fun _ => .done
  | _ => .done

/-- What a packet for the client is made of behind its size. -/
def clientLayout : PacketLayout := .field .int fun type => caseLayout (MsgType.ofCode type)

theorem readInfos_follows {α : Type} {f : Vstack ServerUserInfo → Get α} {next : PacketLayout}
    (hf : ∀ stack, FollowsLayout (f stack) next) (n : Nat) (stack : Vstack ServerUserInfo) :
    FollowsLayout (readInfos n stack >>= f) (infosLayout next n) := by
  induction n generalizing stack with
  | zero => exact hf stack
  | succ n ih =>
    simp only [readInfos, bind_assoc]
    exact .int fun uid => .string fun uname => ih _

theorem readCounted_follows {α : Type} {f : Vstack ServerUserInfo → Get α} {next : PacketLayout}
    (hf : ∀ stack, FollowsLayout (f stack) next) :
    FollowsLayout (readCounted >>= f) (countedLayout next) := by
  simp only [readCounted, bind_assoc]
  exact .int fun count => readInfos_follows hf _ _

theorem dispatchCase_follows (type : Option MsgType) :
    FollowsLayout (dispatchCase type) (caseLayout type) := by
  cases type with
  | none => exact .pure _
  | some t =>
    cases t with
    | welcome | systemMsg | registrFailed => exact .string fun _ => .pure _
    | authFailed => exact .string fun _ => .int fun _ => .pure _
    | broadcast | registrSuccessful => exact .string fun _ => .string fun _ => .pure _
    | who => exact readCounted_follows fun _ => .pure _
    | friends =>
      exact readCounted_follows fun _ => readCounted_follows fun _ => readCounted_follows fun _ =>
        .pure _
    | removeFriend | friendOffline => exact .int fun _ => .pure _
    | friendOnline => exact .int fun _ => .string fun _ => .pure _
    | _ => exact .pure _

theorem processPacket_inside_iff (data : List UInt8) :
    StaysInside (processPacket data) ↔ FitsLayout clientLayout data :=
  FollowsLayout.packet (.int fun type => dispatchCase_follows (MsgType.ofCode type)) data

end VhIM.Client
