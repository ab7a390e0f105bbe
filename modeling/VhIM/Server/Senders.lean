import VhIM.Server.Scan

/-! # Senders

`bp_process_data` gets its sender as a `void *` and keeps it for every packet
of the data. A packet can be the last of its sender, and the loop goes on with
what is left over. -/
namespace VhIM.Server
open VhIM.Lib VhIM.Lib.Runs VhIM.Network VhIM.Sql
open ServerState

/-- This turn hands over a packet that ends its sender's connection, and leaves
some of the data for another. -/
def EndsMidway (inp : Input) (l : Listen) : Prop :=
  match inp, l.phase with
  | .turn junk _, .reading i _ data => ∃ packet rest, bpTurn junk l.rest data = .more packet rest ∧
      ∃ sc ∈ l.server.clients, sc.ssl.fd = i ∧ EndsAt l.server sc packet i
  | _, _ => False

def SenderPresent (l : Listen) : Prop :=
  match l.phase with
  | .reading i _ _ => HasClient l.server i
  | _ => True

variable {lib : Externals} {inp : Input} {l l' : Listen}

theorem senderPresent_step (inp : Input) (l l' : Listen) (h : SenderPresent l)
    (hstep : guarded (ListenStep lib) (fun inp l => ¬ EndsMidway inp l) inp l l') :
    SenderPresent l' := by
  obtain ⟨hstep, hno⟩ := hstep
  cases hstep with
  | data _ _ _ hsc =>
    obtain ⟨hmem, hfd⟩ := OrderedSet.search_eq_some.mp hsc
    exact ⟨_, hmem, hfd⟩
  | again hb =>
    obtain ⟨packet, hturn, _⟩ := bpStep_eq_again.mp hb
    obtain ⟨closed, hclosed, hwhy⟩ := closes_turn (turnRan_of_again hb)
    refine (hclosed.clients _).mpr ⟨h, ?_⟩
    intro hin
    obtain ⟨p, hp, sc, hsc, hfd, hends⟩ := hwhy _ hin
    rw [hturn] at hp
    obtain rfl : packet = p := Option.some.inj hp
    exact hno ⟨packet, _, hturn, sc, hsc, hfd, hends⟩
  | _ => trivial

/-- While the data of a client is processed the client is there, as long as no
packet that ends its connection comes with more behind it. -/
theorem sender_present {db : Database} {listener : Nat} {inputs : List Input}
    (hrun : Run (guarded (ListenStep lib) fun inp l => ¬ EndsMidway inp l)
      (Listen.start db listener) inputs l) :
    ∀ i fds data, l.phase = .reading i fds data → (l.server.clients.search i).isSome := by
  intro i fds data hphase
  have hpresent := hrun.invariant senderPresent_step trivial
  rw [SenderPresent, hphase] at hpresent
  exact isSome_search_iff.mpr hpresent

theorem not_endsMidway (inp : Input) (l : Listen) (hno : ∀ junk env, inp ≠ .turn junk env) :
    ¬ EndsMidway inp l := by
  intro hm
  cases inp with
  | turn junk env => exact hno junk env rfl
  | _ => exact hm

/-- Data has been read from the first of two clients. -/
theorem listen_reading {data : List UInt8} (hne : data ≠ []) (hle : data.length ≤ 1024) :
    ∃ inputs, Run (ListenStep sampleExt) (Listen.start (sampleDb 8) 3) inputs
        ⟨twoClients (sampleDb 8), [], .reading 4 {4} data⟩ ∧
      ∀ inp ∈ inputs, ∀ junk env, inp ≠ .turn junk env := by
  have hfirst : (twoClients (sampleDb 8)).clients.search 4 = some ⟨-1, ⟨1, 4⟩⟩ := rfl
  refine ⟨_, ((listen_twoClients sampleExt (sampleDb 8)).append
    (round_begins sampleExt _ [] (by decide))).append
      (.single (.data (by decide) (by decide) (by decide) hfirst hne hle)), ?_⟩
  rintro inp hinp junk env rfl
  simp [roundOf] at hinp

/-- A login with another packet in the same data, where the loop looks for it. -/
def loginAndWho : List UInt8 :=
  loginOf [97] ++ List.replicate 133 0 ++ packetOf .who []

theorem sender_present_two :
    (((twoClients (sampleDb 8)).reqLogin sampleExt sampleEnv ⟨1, 4⟩ [97] []).clients.search
      4).isSome := by
  obtain ⟨inputs, hread, hno⟩ := listen_reading (show loginAndWho ≠ [] by decide)
    (by decide +kernel)
  have hfirst : bpTurn (fun _ => 0) [] loginAndWho =
      .more (loginOf [97]) (packetOf .who [] ++ List.replicate 133 0) := by
    decide +kernel
  have hlogin : ¬ EndsMidway (.turn (fun _ => 0) sampleEnv)
      ⟨twoClients (sampleDb 8), [], .reading 4 {4} loginAndWho⟩ := by
    rintro ⟨packet, rest, hturn, _, _, _, ⟨⟨htype, _⟩, _⟩ | ⟨htype, _⟩⟩
    all_goals
      obtain ⟨rfl, _⟩ : loginOf [97] = packet ∧ _ = rest := by
        rw [hfirst] at hturn
        exact Turn.more.inj hturn
      exact absurd htype (by decide)
  have hturn : Run (guarded (ListenStep sampleExt) fun inp l => ¬ EndsMidway inp l) _ _ _ :=
    (guarded_of_no_turn not_endsMidway hread hno).append
      (.single ⟨.again (bpStep_eq_again.mpr ⟨_, hfirst, rfl, by decide +kernel⟩), hlogin⟩)
  exact sender_present hturn 4 {4} loginAndWho rfl

/-- The other way round: after such a turn, unless the program has stopped, the
data of a client that is gone is processed. -/
theorem endsMidway_leaves_none (hm : EndsMidway inp l) (hstep : ListenStep lib inp l l')
    (hlive : ∀ f, l'.phase ≠ .failed f) : ¬ SenderPresent l' := by
  cases hstep with
  | again hb =>
    obtain ⟨packet, rest, hturn, sc, hsc, hfd, hends⟩ := hm
    have hran := turnRan_of_again hb
    rw [hturn] at hran
    obtain ⟨sc', hsc', hfd', hproc, _⟩ := handled_packet hran
    obtain rfl : sc' = sc := OrderedSet.eq_of_key_eq hsc' hsc (hfd'.trans hfd.symm)
    exact endsAt_closes hends hproc
  | returned hb =>
    obtain ⟨packet, rest, hturn, _⟩ := hm
    obtain ⟨he, _⟩ | ⟨p, he, _⟩ | ⟨he, _⟩ := bpStep_eq_returned.mp hb
    all_goals
      rw [hturn] at he
      cases he
  | failed => exact absurd rfl (hlive _)
  | _ => exact hm.elim

/-- A goodbye with another packet in the same data, where the loop looks for it. -/
def goodbyeAndWho : List UInt8 :=
  packetOf .disconnect [] ++ List.replicate 56 0 ++ packetOf .who []

/-- The second packet is dispatched to the client that the first has freed. -/
theorem goodbye_then_who : ∃ inputs l,
    Run (ListenStep sampleExt) (Listen.start (sampleDb 8) 3) inputs l ∧
      l.phase = .reading 4 {4} goodbyeAndWho ∧ l.server.clients.search 4 = none ∧
      (bpTurn (fun _ => 0) l.rest goodbyeAndWho).packet = some (packetOf .who []) ∧
      ListenStep sampleExt (.turn (fun _ => 0) sampleEnv) l
        ⟨l.server, l.rest, .failed .freedClient⟩ := by
  obtain ⟨inputs, hread, _⟩ := listen_reading (show goodbyeAndWho ≠ [] by decide) (by decide)
  have hfirst : bpTurn (fun _ => 0) [] goodbyeAndWho =
      .more (packetOf .disconnect []) (packetOf .who [] ++ List.replicate 56 0) := by
    decide +kernel
  have hsecond : (bpTurn (fun _ => 0) (packetOf .who [] ++ List.replicate 56 0)
      goodbyeAndWho).packet = some (packetOf .who []) := by
    decide +kernel
  obtain ⟨t, hgone, hnone⟩ : ∃ t, (twoClients (sampleDb 8)).cbMsgRcv sampleExt sampleEnv 4
      (packetOf .disconnect []) = .ok t ∧ t.clients.search 4 = none := ⟨_, rfl, rfl⟩
  have hturn : ListenStep sampleExt (.turn (fun _ => 0) sampleEnv)
      ⟨twoClients (sampleDb 8), [], .reading 4 {4} goodbyeAndWho⟩
      ⟨t, packetOf .who [] ++ List.replicate 56 0, .reading 4 {4} goodbyeAndWho⟩ :=
    .again (bpStep_eq_again.mpr ⟨_, hfirst, hgone, by decide⟩)
  refine ⟨_, _, hread.append (.single hturn), rfl, hnone, hsecond, .failed ?_⟩
  refine bpStep_eq_fault hsecond ?_
  simp only [cbMsgRcv, hnone]

end VhIM.Server
