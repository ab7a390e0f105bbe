import VhIM.Client.WireFormat
import VhIM.Network.ByteProcessor
import VhIM.Server.Sessions

/-! # What the server reads

The layout of each message a client may send, as the reads of its case define
it, and with it where the two programs keep inside a packet they are handed:
nothing checks a packet before it is read. -/
namespace VhIM.Server
open VhIM.Lib VhIM.Lib.Runs VhIM.Network VhIM.Sql
open ServerState

/-- A whisper is read on only if its target is online, a kick only if it is
allowed. -/
def authLayout (s : ServerState) (user : ServerUser) : Option MsgType → PacketLayout
  | some .broadcast => .field .string fun _ => .done
  | some .cmdKickId =>
    if isAllowed user.pLevel .cmdKickId then .field .int fun _ => .done else .done
  | some .whisper => .field .int fun tid =>
      if (s.getUserById tid).isSome then .field .string fun _ => .done else .done
  | some .grantPrivileges => .field .int fun _ => .field .int fun _ => .done
  | some .addFriend => .field .int fun _ => .done
  | some .removeFriend => .field .int fun _ => .done
  | some .groupCreate => .field .string fun _ => .done
  | _ => .done

def unauthLayout : Option MsgType → PacketLayout
  | some .reqLogin => .field .string fun _ => .field .string fun _ => .done
  | some .reqRegister => .field .string fun _ => .field .string fun _ => .done
  | _ => .done

/-- What a packet of the client is made of behind its size. -/
def serverLayout (s : ServerState) (sc : ServerClient) : PacketLayout :=
  if 0 < sc.id then
    match s.getUserById sc.id with
    | some user => .field .int fun type => authLayout s user (MsgType.ofCode type)
    | none => .done
  else .field .int fun type => unauthLayout (MsgType.ofCode type)

variable {lib : Externals} {env : Env} {s : ServerState} {ssl : Ssl} {user : ServerUser}

/-! ## The handlers meet no reading fault of their own -/

theorem disconnect_inside (s : ServerState) (ssl : Ssl) :
    StaysInside (s.serverChDisconnectClient env ssl) := by
  simp only [serverChDisconnectClient, serverChClientDisconnected]
  cases s.clients.search ssl.fd with
  | none => exact avoids_error.mpr (by decide)
  | some sc => exact avoids_ok _ _

theorem kickLoop_inside (s : ServerState) (conns : List Ssl) :
    StaysInside (s.kickLoop env conns) := by
  induction conns generalizing s with
  | nil => exact avoids_ok _ _
  | cons c conns ih =>
    have hd : StaysInside (s.serverChDisconnectClient env c) := disconnect_inside s c
    simp only [kickLoop]
    cases hs : s.serverChDisconnectClient env c with
    | error f => exact avoids_error.mpr (hd f hs)
    | ok m => exact ih m

theorem cmdKickId_inside (s : ServerState) (tid : Int32) : StaysInside (s.cmdKickId env tid) := by
  simp only [cmdKickId]
  split
  · exact kickLoop_inside _ _
  · exact avoids_ok _ _

/-! ## Each case -/

theorem authCase_follows (type : Option MsgType) :
    FollowsLayout (s.authCase env ssl user type) (authLayout s user type) := by
  cases type with
  | none => exact .pure _
  | some t =>
    cases t with
    | broadcast | groupCreate => exact .string fun _ => .pure _
    | cmdKickId =>
      simp only [authCase, authLayout]
      split
      · exact .int fun _ => .lift (cmdKickId_inside _ _)
      · exact .pure _
    | whisper =>
      refine .int fun tid => ?_
      cases s.getUserById tid with
      | some tuser => exact .string fun _ => .pure _
      | none => exact .pure _
    | disconnect => exact .lift (disconnect_inside _ _)
    | grantPrivileges => exact .int fun _ => .int fun _ => .pure _
    | addFriend | removeFriend => exact .int fun _ => .pure _
    | _ => exact .pure _

theorem unauthCase_follows (type : Option MsgType) :
    FollowsLayout (s.unauthCase lib env ssl type) (unauthLayout type) := by
  cases type with
  | none => exact .pure _
  | some t =>
    cases t with
    | reqLogin | reqRegister => exact .string fun _ => .string fun _ => .pure _
    | disconnect => exact .lift (disconnect_inside _ _)
    | _ => exact .pure _

theorem staysInside_map {α β : Type} {f : α → β} {r : Except Fault α} :
    StaysInside (r.map f) ↔ StaysInside r := by
  cases r with
  | error e =>
    have hne : StaysInside (.error e : Except Fault α) ↔ ¬ e.ofRead = true := avoids_error
    exact Iff.trans avoids_error hne.symm
  | ok a => exact ⟨fun _ => avoids_ok _ _, fun _ => avoids_ok _ _⟩

theorem handlePacketAuth_follows : FollowsLayout (s.handlePacketAuth env ssl user)
    (.field .int fun type => authLayout s user (MsgType.ofCode type)) :=
  .int fun type => authCase_follows (MsgType.ofCode type)

theorem handlePacketUnauth_follows : FollowsLayout (s.handlePacketUnauth lib env ssl)
    (.field .int fun type => unauthLayout (MsgType.ofCode type)) :=
  .int fun type => unauthCase_follows (MsgType.ofCode type)

theorem processPacket_inside_iff (s : ServerState) (sc : ServerClient) (data : List UInt8) :
    StaysInside (s.processPacket lib env sc data) ↔ FitsLayout (serverLayout s sc) data := by
  simp only [processPacket, serverLayout]
  split
  · cases s.getUserById sc.id with
    | some user => exact staysInside_map.trans (handlePacketAuth_follows.packet data)
    | none => exact ⟨fun _ => trivial, fun _ => avoids_ok _ _⟩
  · exact staysInside_map.trans (handlePacketUnauth_follows.packet data)

/-- Of any packet, in any state and from any client: what the server makes of
it stays inside it exactly when it has the layout that the server's reads
expect, and what a client makes of it exactly when it has the client's. -/
theorem packets_read_inside_iff (lib : Externals) (env : Env) (s : ServerState)
    (sc : ServerClient) (data : List UInt8) :
    (StaysInside (s.processPacket lib env sc data) ↔ FitsLayout (serverLayout s sc) data) ∧
      (StaysInside (Client.processPacket data) ↔ FitsLayout Client.clientLayout data) :=
  ⟨processPacket_inside_iff s sc data, Client.processPacket_inside_iff data⟩

/-- A packet that ends behind its size: handed over by the byte processor, it
is read past its end by the server for a client that has just connected, and
by the client. -/
theorem short_packet_read_outside :
    bpTurn (fun _ => 0) [] [0, 0, 0, 4] = .whole [0, 0, 0, 4] ∧
    (∃ s, Run (ServerStep sampleExt) (ServerState.start (sampleDb 0) 3) [.accept ⟨1, 4⟩ true] s ∧
      ∃ sc ∈ s.clients, ¬ StaysInside (s.processPacket sampleExt sampleEnv sc [0, 0, 0, 4])) ∧
    ¬ StaysInside (Client.processPacket [0, 0, 0, 4]) := by
  refine ⟨rfl, ⟨_, .single (.accept true (by decide) (by decide)
    fun sc hsc => absurd hsc (OrderedSet.not_mem_empty sc)), _, .head _, ?_⟩, ?_⟩
  · exact fun h => h .outOfBounds rfl rfl
  · exact fun h => h .outOfBounds rfl rfl

end VhIM.Server
