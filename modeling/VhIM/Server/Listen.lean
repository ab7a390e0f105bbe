import VhIM.Network.ByteProcessor
import VhIM.Server.Sessions

/-! # The main loop

`server_ch_listen` as a machine of small steps: the call of `select`, the scan
over the descriptors, and the turns of `bp_process_data` for the data that was
read, with the packets handled as they are handed over. -/
namespace VhIM.Server
open VhIM.Lib VhIM.Lib.Runs VhIM.Network VhIM.Sql
open ServerState

inductive Phase where
  /-- About to copy `master` and call `select`. -/
  | select
  /-- At the turn of the scan for descriptor `i`. -/
  | scan (i : Nat) (readFds : Finset Nat)
  /-- In `bp_process_data`, with the data read from `i`. -/
  | reading (i : Nat) (readFds : Finset Nat) (data : List UInt8)
  /-- The program has stopped. -/
  | failed (f : Fault)

structure Listen where
  server : ServerState
  /-- The first `rest_buffer_len` bytes of `rest_buffer`. -/
  rest : List UInt8
  phase : Phase

inductive Input where
  /-- The descriptors `select` reports. -/
  | ready (readFds : Finset Nat)
  /-- Nothing: the loop goes on. -/
  | none
  /-- `accept` failed. -/
  | refused
  /-- `accept` returned a descriptor; whether the handshake succeeded. -/
  | accepted (ssl : Ssl) (handshake : Bool)
  /-- `SSL_read` returned 0 or an error. -/
  | hungUp (env : Env)
  /-- `SSL_read` returned data. -/
  | data (data : List UInt8)
  /-- What `total_data` holds in a turn, and what its packet meets. -/
  | turn (junk : Nat → UInt8) (env : Env)

def Listen.start (db : Database) (listener : Nat) : Listen :=
  ⟨ServerState.start db listener, [], .select⟩

variable (lib : Externals)

/-- One step of the loop. `select` fails on a descriptor that is closed, and
then the program exits. -/
inductive ListenStep : Input → Listen → Listen → Prop
  | select {s : ServerState} {rest : List UInt8} {fds : Finset Nat} :
      s.master ⊆ s.opened → fds ⊆ s.master →
      ListenStep (.ready fds) ⟨s, rest, .select⟩ ⟨s, rest, .scan 0 fds⟩
  | scanned {s : ServerState} {rest : List UInt8} {i : Nat} {fds : Finset Nat} : s.fdmax < i →
      ListenStep .none ⟨s, rest, .scan i fds⟩ ⟨s, rest, .select⟩
  | skipped {s : ServerState} {rest : List UInt8} {i : Nat} {fds : Finset Nat} : i ≤ s.fdmax →
      i ∉ fds → ListenStep .none ⟨s, rest, .scan i fds⟩ ⟨s, rest, .scan (i + 1) fds⟩
  | refused {s : ServerState} {rest : List UInt8} {i : Nat} {fds : Finset Nat} : i ≤ s.fdmax →
      i ∈ fds → i = s.listener →
      ListenStep .refused ⟨s, rest, .scan i fds⟩ ⟨s, rest, .scan (i + 1) fds⟩
  | accepted {s t : ServerState} {rest : List UInt8} {i : Nat} {fds : Finset Nat} {ssl : Ssl}
      {handshake : Bool} : i ≤ s.fdmax → i ∈ fds → i = s.listener →
      ServerStep lib (.accept ssl handshake) s t →
      ListenStep (.accepted ssl handshake) ⟨s, rest, .scan i fds⟩ ⟨t, rest, .scan (i + 1) fds⟩
  | noClient {s : ServerState} {rest : List UInt8} {i : Nat} {fds : Finset Nat} : i ≤ s.fdmax →
      i ∈ fds → i ≠ s.listener → s.clients.search i = none →
      ListenStep .none ⟨s, rest, .scan i fds⟩ ⟨s, rest, .failed .nullClient⟩
  | hungUp {s t : ServerState} {rest : List UInt8} {i : Nat} {fds : Finset Nat}
      {sc : ServerClient} {env : Env} : i ≤ s.fdmax → i ∈ fds → i ≠ s.listener →
      s.clients.search i = some sc → s.serverChDisconnectClient env sc.ssl = .ok t →
      ListenStep (.hungUp env) ⟨s, rest, .scan i fds⟩ ⟨t, rest, .scan (i + 1) fds⟩
  | data {s : ServerState} {rest : List UInt8} {i : Nat} {fds : Finset Nat} {sc : ServerClient}
      {data : List UInt8} : i ≤ s.fdmax → i ∈ fds → i ≠ s.listener →
      s.clients.search i = some sc → data ≠ [] → data.length ≤ 1024 →
      ListenStep (.data data) ⟨s, rest, .scan i fds⟩ ⟨s, rest, .reading i fds data⟩
  | again {s t : ServerState} {rest rest' : List UInt8} {i : Nat} {fds : Finset Nat}
      {data : List UInt8} {junk : Nat → UInt8} {env : Env} :
      bpStep (fun p s => s.cbMsgRcv lib env i p) junk data rest s = .again rest' t →
      ListenStep (.turn junk env) ⟨s, rest, .reading i fds data⟩ ⟨t, rest', .reading i fds data⟩
  | returned {s t : ServerState} {rest rest' : List UInt8} {i : Nat} {fds : Finset Nat}
      {data : List UInt8} {junk : Nat → UInt8} {env : Env} {code : Int32} :
      bpStep (fun p s => s.cbMsgRcv lib env i p) junk data rest s = .returned code rest' t →
      ListenStep (.turn junk env) ⟨s, rest, .reading i fds data⟩ ⟨t, rest', .scan (i + 1) fds⟩
  | failed {s : ServerState} {rest : List UInt8} {i : Nat} {fds : Finset Nat} {data : List UInt8}
      {junk : Nat → UInt8} {env : Env} {f : Fault} :
      bpStep (fun p s => s.cbMsgRcv lib env i p) junk data rest s = .fault f →
      ListenStep (.turn junk env) ⟨s, rest, .reading i fds data⟩ ⟨s, rest, .failed f⟩

variable {lib}

/-! ## Rounds

An event on its own, from one call of `select` to the next. -/

/-- Of the descriptors that are ready, `i` is the first. -/
abbrev FirstReady (s : ServerState) (i : Nat) (fds : Finset Nat) : Prop :=
  s.master ⊆ s.opened ∧ fds ⊆ s.master ∧ (∀ j < i, j ∉ fds) ∧ i ≤ s.fdmax

section Rounds
variable (lib) (s : ServerState) (rest : List UInt8)

/-- The scan passes over descriptors that are not ready. -/
theorem scan_skips (fds : Finset Nat) (n i : Nat) (hno : ∀ j, i ≤ j → j < i + n → j ∉ fds)
    (hmax : i + n ≤ s.fdmax + 1) :
    Run (ListenStep lib) ⟨s, rest, .scan i fds⟩ (List.replicate n .none)
      ⟨s, rest, .scan (i + n) fds⟩ := by
  induction n generalizing i with
  | zero => exact .nil _
  | succ n ih =>
    have hnext := ih (i + 1) (fun j hij hj => hno j (by omega) (by omega)) (by omega)
    rw [show i + 1 + n = i + (n + 1) by omega] at hnext
    exact .cons (.skipped (by omega) (hno i le_rfl (by omega))) hnext

/-- Descriptor `i` is the first that is ready, and the scan comes to it. -/
theorem round_begins {i : Nat} {fds : Finset Nat} (h : FirstReady s i fds) :
    Run (ListenStep lib) ⟨s, rest, .select⟩ (.ready fds :: List.replicate i .none)
      ⟨s, rest, .scan i fds⟩ := by
  obtain ⟨hopen, hfds, hfirst, hmax⟩ := h
  have hskip := scan_skips lib s rest fds i 0 (fun j _ hj => hfirst j (by omega)) (by omega)
  rw [Nat.zero_add] at hskip
  exact .cons (.select hopen hfds) hskip

/-- It was the only one, and the scan goes on to its end. -/
theorem round_ends (i : Nat) (hmax : i ≤ s.fdmax) :
    Run (ListenStep lib) ⟨s, rest, .scan (i + 1) {i}⟩
      (List.replicate (s.fdmax - i) .none ++ [.none]) ⟨s, rest, .select⟩ := by
  have hskip := scan_skips lib s rest {i} (s.fdmax - i) (i + 1)
    (fun j hij _ => by rw [Finset.mem_singleton]; omega) (by omega)
  exact hskip.append (.single (.scanned (by omega)))

variable {lib s} {t : ServerState}

/-- The inputs of a round that handles descriptor `i` alone. -/
def roundOf (i fdmax : Nat) (handled : List Input) : List Input :=
  .ready {i} :: List.replicate i .none ++ handled ++ (List.replicate (fdmax - i) .none ++ [.none])

theorem firstReady_singleton {i : Nat} (hopen : s.master ⊆ s.opened) (hi : i ∈ s.master)
    (hmax : i ≤ s.fdmax) : FirstReady s i {i} := by
  refine ⟨hopen, Finset.singleton_subset_iff.mpr hi, ?_, hmax⟩
  intro j hj
  rw [Finset.mem_singleton]
  omega

theorem round_single {rest' : List UInt8} {i : Nat} {handled : List Input}
    (hi : FirstReady s i {i})
    (h : Run (ListenStep lib) ⟨s, rest, .scan i {i}⟩ handled ⟨t, rest', .scan (i + 1) {i}⟩)
    (htmax : s.fdmax ≤ t.fdmax) :
    Run (ListenStep lib) ⟨s, rest, .select⟩ (roundOf i t.fdmax handled) ⟨t, rest', .select⟩ :=
  ((round_begins lib s rest hi).append h).append
    (round_ends lib t rest' i (hi.2.2.2.trans htmax))

theorem round_accept {ssl : Ssl} {handshake : Bool} (hready : FirstReady s s.listener {s.listener})
    (hstep : ServerStep lib (.accept ssl handshake) s t) (htmax : s.fdmax ≤ t.fdmax) :
    Run (ListenStep lib) ⟨s, rest, .select⟩
      (roundOf s.listener t.fdmax [.accepted ssl handshake]) ⟨t, rest, .select⟩ :=
  round_single rest hready
    (.single (.accepted hready.2.2.2 (Finset.mem_singleton_self _) rfl hstep)) htmax

/-- A packet that arrives whole, with nothing left over before it, is handed
over in one turn. -/
theorem bpStep_packet {i : Nat} {env : Env} {packet : List UInt8}
    (hpacket : ∃ type body, packet = packetBytes type body) (hle : packet.length ≤ 1024)
    (hp : s.cbMsgRcv lib env i packet = .ok t) :
    bpStep (fun p s => s.cbMsgRcv lib env i p) (fun _ => 0) packet [] s = .returned 1 [] t := by
  obtain ⟨type, body, rfl⟩ := hpacket
  have hlen := packetBytes_length type body
  have hturn := bpTurn_packet (fun _ => 0) (by omega) (by omega) (packetBytes_size type body)
  simp only [bpStep, hturn, hp]

theorem whole_packet (sc : ServerClient) (env : Env) (packet : List UInt8) {fds : Finset Nat}
    (hmax : sc.ssl.fd ≤ s.fdmax) (hfds : sc.ssl.fd ∈ fds) (hne : sc.ssl.fd ≠ s.listener)
    (hsc : sc ∈ s.clients) (hpacket : ∃ type body, packet = packetBytes type body)
    (hle : packet.length ≤ 1024) (hp : s.cbMsgRcv lib env sc.ssl.fd packet = .ok t) :
    Run (ListenStep lib) ⟨s, [], .scan sc.ssl.fd fds⟩ [.data packet, .turn (fun _ => 0) env]
      ⟨t, [], .scan (sc.ssl.fd + 1) fds⟩ := by
  have hsome : packet ≠ [] := by
    obtain ⟨type, body, rfl⟩ := hpacket
    have hlen := packetBytes_length type body
    exact List.ne_nil_of_length_pos (by omega)
  exact .cons (.data hmax hfds hne (OrderedSet.search_eq_some.mpr ⟨hsc, rfl⟩) hsome hle)
    (.single (.returned (bpStep_packet hpacket hle hp)))

theorem round_packet (sc : ServerClient) (env : Env) (packet : List UInt8)
    (hready : FirstReady s sc.ssl.fd {sc.ssl.fd}) (hne : sc.ssl.fd ≠ s.listener)
    (hsc : sc ∈ s.clients) (hpacket : ∃ type body, packet = packetBytes type body)
    (hle : packet.length ≤ 1024) (hp : s.cbMsgRcv lib env sc.ssl.fd packet = .ok t)
    (htmax : s.fdmax ≤ t.fdmax) :
    Run (ListenStep lib) ⟨s, [], .select⟩
      (roundOf sc.ssl.fd t.fdmax [.data packet, .turn (fun _ => 0) env]) ⟨t, [], .select⟩ :=
  round_single [] hready (whole_packet sc env packet hready.2.2.2 (Finset.mem_singleton_self _) hne
    hsc hpacket hle hp) htmax

end Rounds
end VhIM.Server
