import VhIM.Lib.Loops
import VhIM.Server.Heap

/-! # Turns of the handlers

How many turns the loops over the nodes are given decides whether a handler
comes to its end, never what it does. -/
namespace VhIM.Server
open VhIM.Lib VhIM.Network VhIM.Sql VhIM.Utility
open ServerState

namespace Memory
variable {m : Memory} {env : Env} {s : ServerState} {user : ServerUser} {sc : ServerClient}

/-! ## Loops -/

theorem steady_walk (q : Option Nat) : Steady fun fuel => m.walk fuel q := by
  refine steady_loop (e := .unfinished) (fun _ => rfl) (fun fuel ih q => ?_) q
  cases q with
  | none => exact .refl _
  | some p => exact .bind (.refl _) fun n => .bind (ih n.next) fun _ => .refl _

theorem steady_destroyConnections (m : Memory) (q : Option Nat) :
    Steady fun fuel => m.destroyConnections fuel q := by
  refine steady_loop (f := fun fuel (x : Memory × Option Nat) => x.1.destroyConnections fuel x.2)
    (e := .unfinished) (fun _ => rfl) (fun fuel ih x => ?_) (m, q)
  obtain ⟨m, q⟩ := x
  cases q with
  | none => exact .refl _
  | some p => exact .bind (.refl _) fun n => ih (_, n.next)

theorem steady_findConnection (ssl : Ssl) (prev cur : Option Nat) :
    Steady fun fuel => m.findConnection ssl fuel prev cur := by
  refine steady_loop (f := fun fuel (x : Option Nat × Option Nat) =>
    m.findConnection ssl fuel x.1 x.2) (e := .unfinished) (fun _ => rfl) (fun fuel ih x => ?_)
    (prev, cur)
  obtain ⟨prev, cur⟩ := x
  cases cur with
  | none => exact .refl _
  | some p =>
    refine .bind (.refl _) fun n => ?_
    split
    · exact ih (some p, n.next)
    · exact .refl _

theorem steady_removeConnection (uid : Int32) (ssl : Ssl) :
    Steady fun fuel => m.removeConnection fuel uid ssl :=
  fun _ _ hle => .bind (steady_findConnection ssl _ _ hle) fun _ => .refl _

theorem steady_kickLoop (s : ServerState) (m : Memory) (q : Option Nat) :
    Steady fun fuel => kickLoop env fuel s m q := by
  refine steady_loop (f := fun fuel (x : ServerState × Memory × Option Nat) =>
    kickLoop env fuel x.1 x.2.1 x.2.2) (e := .unfinished) (fun _ => rfl) (fun fuel ih x => ?_)
    (s, m, q)
  obtain ⟨s, m, q⟩ := x
  cases q with
  | none => exact .refl _
  | some p =>
    refine .bind (.refl _) fun n => .bind ?_ fun x => .bind (.refl _) fun n => ih (_, _, n.next)
    unfold Memory.serverChDisconnectClient
    split
    · exact .refl _
    · refine .bind ?_ fun m => .refl _
      unfold Memory.cbClDc
      split
      · split
        · exact steady_removeConnection _ _ (Nat.le_succ _)
        · exact .refl _
      · exact .refl _

/-! ## Sends -/

theorem steady_sendDataToUser (uTo : Option ServerUser) (data : List UInt8) :
    Steady fun fuel => m.sendDataToUser fuel uTo data := by
  intro k l hle
  cases uTo with
  | none => exact .refl _
  | some u => exact .bind (steady_walk _ hle) fun _ => .refl _

theorem yields_sendEach {α : Type} {f g : α → Except MemFault Sends}
    (h : ∀ a, Yields (f a) (g a)) (l : List α) : Yields (sendEach f l) (sendEach g l) := by
  induction l with
  | nil => exact .refl _
  | cons a l ih => exact .bind (h a) fun _ => .bind ih fun _ => .refl _

theorem steady_sendToFriends (uFrom : ServerUser) (msg : ServerMsg) :
    Steady fun fuel => m.sendToFriends fuel env s uFrom msg :=
  fun _ _ hle => yields_sendEach (fun _ => steady_sendDataToUser _ _ hle) _

theorem steady_sendToAll (ssl : Ssl) (msg : ServerMsg) :
    Steady fun fuel => m.sendToAll fuel env s ssl msg :=
  fun _ _ hle => yields_sendEach (fun _ => .bind (steady_walk _ hle) fun _ => .refl _) _

/-! ## Handlers -/

theorem steady_dropConnection (user : ServerUser) (ssl : Ssl) :
    Steady fun fuel => m.dropConnection fuel env s user ssl := by
  intro k l hle
  refine .bind (steady_removeConnection _ _ hle) fun m' => ?_
  split
  · exact .bind (steady_sendToFriends _ _ hle) fun _ =>
      .bind (steady_destroyConnections _ _ hle) fun _ => .refl _
  · exact .refl _

theorem steady_hangUp (sc : ServerClient) : Steady fun fuel => m.hangUp fuel env s sc := by
  intro k l hle
  dsimp only [hangUp]
  split
  · exact steady_dropConnection _ _ hle
  · exact .refl _

theorem steady_kick (tid : Int32) : Steady fun fuel => m.kick fuel env s tid := by
  intro k l hle
  dsimp only [kick]
  split
  · exact .bind (steady_sendDataToUser _ _ hle) fun _ =>
      .bind (steady_kickLoop _ _ _ hle) fun _ => .refl _
  · exact .refl _

theorem steady_addFriend (user : ServerUser) (uidTarget : Int32) :
    Steady fun fuel => m.addFriend fuel env s user uidTarget := by
  intro k l hle
  dsimp only [addFriend, sendFriendRequest]
  split
  · split <;> exact steady_sendDataToUser _ _ hle
  · exact .refl _

theorem steady_removeFriend (user : ServerUser) (uidTarget : Int32) :
    Steady fun fuel => m.removeFriend fuel env s user uidTarget := by
  intro k l hle
  dsimp only [removeFriend]
  split
  · exact .bind (steady_sendDataToUser _ _ hle) fun _ =>
      .bind (steady_sendDataToUser _ _ hle) fun _ => .refl _
  · exact .refl _

theorem steady_welcome (user : ServerUser) (ssl : Ssl) (uname : List UInt8) :
    Steady fun fuel => m.welcome fuel env s user ssl uname := by
  intro k l hle
  dsimp only [welcome]
  split
  · exact .bind (steady_sendToFriends _ _ hle) fun _ => .refl _
  · exact .refl _

theorem steady_reqLogin (lib : Externals) (p : Nat) (ssl : Ssl) (uname upw : List UInt8) :
    Steady fun fuel => m.reqLogin fuel env s lib p ssl uname upw := by
  intro k l hle
  dsimp only [reqLogin]
  split
  · split <;> exact steady_welcome _ _ _ hle
  · exact .refl _

theorem steady_still {f : Nat → Except MemFault Sends} (h : Steady f) :
    Steady fun fuel => m.still (f fuel) := fun _ _ hle => (h hle).map _

theorem steady_serveAuth (cmd : Command) :
    Steady fun fuel => m.serveAuth fuel env s sc user cmd := by
  intro k l hle
  cases cmd with
  | broadcast msg => exact steady_still (steady_sendToAll _ _) hle
  | cmdKickId tid =>
    cases tid with
    | none => exact .refl _
    | some tid => exact steady_kick _ hle
  | whisper tid msg =>
    cases msg with
    | none => exact .refl _
    | some msg =>
      dsimp only [Memory.serveAuth]
      split
      · exact steady_still (steady_sendDataToUser _ _) hle
      · exact .refl _
  | who | friends => exact steady_still (steady_sendDataToUser _ _) hle
  | logout => exact steady_dropConnection _ _ hle
  | disconnect => exact steady_hangUp _ hle
  | addFriend uid => exact steady_still (steady_addFriend _ _) hle
  | removeFriend uid => exact steady_still (steady_removeFriend _ _) hle
  | _ => exact .refl _

theorem steady_serveUnauth (lib : Externals) (p : Nat) (cmd : Command) :
    Steady fun fuel => m.serveUnauth fuel env s lib p sc cmd := by
  intro k l hle
  dsimp only [Memory.serveUnauth]
  split
  · exact steady_reqLogin _ _ _ _ _ hle
  · exact .refl _
  · exact steady_hangUp _ hle
  · exact .refl _

theorem steady_handle (lib : Externals) (p : Nat) (e : Event) :
    Steady fun fuel => m.handle fuel s lib p e := by
  intro k l hle
  dsimp only [handle, Memory.serve]
  split
  · exact .refl _
  · split
    · split
      · split
        · split
          · exact steady_serveAuth _ hle
          · exact .refl _
        · exact steady_serveUnauth _ _ _ hle
      · exact .refl _
    · exact .refl _
  · split
    · exact steady_hangUp _ hle
    · exact .refl _

end Memory
end VhIM.Server
