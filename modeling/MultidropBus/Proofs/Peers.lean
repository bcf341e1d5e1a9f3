import Mathlib.Data.Fin.VecNotation
import MultidropBus.Node.BusTask
import MultidropBus.Proofs.Receive.Resting
import MultidropBus.Proofs.Transmit.Answers

/-!
# Stations on one line

Every station on the line hears the same frame. Which of them store it is settled by the
destination and their identities; which of them answer it is settled by the service loop, which
compares the destination with the station's own address and the source with the master's. Own
addresses differ, so at most one station speaks, even where a broadcast, a group or a station that
sees all traffic lets many of them read the frame (`Peer.one_takes_and_answers`). The bus task of a
node runs such a service loop (`Node.busSteps_rounds`).
-/

namespace MultidropBus

/-! ### Identities -/

theorem Address.not_isGroup_of_isAssignable {a : Address} (h : a.isAssignable = true) :
    a.isGroup = false ∧ a ≠ broadcast := by
  have hkey : ∀ n : Fin 256, Address.isAssignable ⟨⟨n⟩⟩ = true →
      Address.isGroup ⟨⟨n⟩⟩ = false ∧ (⟨⟨n⟩⟩ : UInt8) ≠ broadcast := by
    decide +kernel
  exact hkey a.toFin h

theorem Address.isAssignable_of_isNode {a : Address} (h : a.isNode = true) :
    a.isAssignable = true := by
  simp only [isNode, Bool.and_eq_true, decide_eq_true_iff] at h
  exact a.isAssignable_iff.2 h.2

namespace Identity

variable {c : Identity}

/-- A valid identity is a member of groups only. -/
theorem isGroup_of_validate (h : c.validate = .ok ()) {group : Address}
    (hgroup : group ∈ c.groups.members) : group.isGroup = true := by
  rw [validate] at h
  split at h
  · cases h
  · split at h
    · cases h
    · split at h
      · cases h
      · rename_i hnone
        have hall := List.find?_eq_none.1 hnone group hgroup
        simpa using hall

/-- A frame for a single station is accepted under the own address only, unless all traffic is. -/
theorem accepts_iff (h : c.validate = .ok ()) (hplain : c.promiscuous = false)
    {destination : Address} (hsingle : destination.isAssignable = true) :
    c.accepts destination = true ↔ c.address = destination := by
  obtain ⟨hgroup, hbroadcast⟩ := Address.not_isGroup_of_isAssignable hsingle
  have hmember : destination ∉ c.groups.members := by
    intro hmember
    have hisGroup := isGroup_of_validate h hmember
    rw [hgroup] at hisGroup
    cases hisGroup
  simp only [accepts, hplain, Bool.false_or, Bool.or_eq_true, beq_iff_eq, List.contains_eq_mem,
    decide_eq_true_iff, hbroadcast, hmember, or_false]
  exact eq_comm

end Identity

/-! ### One station and its service loop -/

/-- A station with its outbox. Its ring has room for a header at least. -/
structure Peer (size : RingSize) (depth : Nat) where
  station : Station size
  outbox : Outbox depth
  holdsHeader : headerSize ≤ size.slots

namespace Peer

variable {size : RingSize} {depth : Nat}

def identity (q : Peer size depth) : Identity := q.station.receive.identity

def address (q : Peer size depth) : Address := q.identity.address

def setReceive (q : Peer size depth) (path : ReceivePath size) : Peer size depth :=
  { q with station := { q.station with receive := path } }

/-- The station hears a frame on the line. -/
def hear (q : Peer size depth) (frame : Bytes) : Peer size depth :=
  q.setReceive (q.station.receive.receiveAll (LineEvent.ofFrame frame)).1

/-- Some of what the station heard went into its ring. -/
def Stores (q : Peer size depth) (frame : Bytes) : Prop :=
  (q.hear frame).station.receive.ring ≠ q.station.receive.ring

/-- Handles a frame from the ring: answers it if it is a poll. -/
def handle (q : Peer size depth) (own : Address) (bytes : Bytes) : Peer size depth :=
  match Frame.parse bytes with
  | .error _ => q
  | .ok frame =>
    let outcome := q.station.transmit.answerPoll q.outbox frame own
    { q with
      station := { q.station with transmit := outcome.path }
      outbox := outcome.outbox }

/-- One round of the service loop. -/
def serve (q : Peer size depth) (own : Address) : Peer size depth :=
  let served := q.station.receive.serve
  (served.1.toList.foldl (fun q => q.handle own) q).setReceive served.2

/-- Some rounds of the service loop. -/
def serveRounds (q : Peer size depth) (own : Address) : Nat → Peer size depth
  | 0 => q
  | n + 1 => (q.serve own).serveRounds own n

/-- The station hears a frame, and then goes through some rounds of its service loop, which it runs
with its own address. -/
def respond (q : Peer size depth) (frame : Bytes) (rounds : Nat) : Peer size depth :=
  (q.hear frame).serveRounds q.address rounds

/-- A frame is loaded for the line. -/
def isLoaded (q : Peer size depth) : Bool := q.station.transmit.isTransmitting

/-- Nothing is on its way in or out; what waits in the outbox does not matter. -/
structure AtRest (q : Peer size depth) : Prop where
  receiver : q.station.receive.AtRest
  transmitter : q.station.transmit.phase = .idle

variable {q : Peer size depth} {own destination source : Address} {payload : Bytes}

theorem setReceive_receive (q : Peer size depth) (path : ReceivePath size) :
    (q.setReceive path).station.receive = path := rfl

theorem hear_receive (q : Peer size depth) (frame : Bytes) :
    (q.hear frame).station.receive
      = (q.station.receive.receiveAll (LineEvent.ofFrame frame)).1 := rfl

theorem handle_receive (q : Peer size depth) (own : Address) (bytes : Bytes) :
    (q.handle own bytes).station.receive = q.station.receive := by
  rw [handle]
  cases Frame.parse bytes <;> rfl

theorem handle_setReceive (q : Peer size depth) (path : ReceivePath size) (own : Address)
    (bytes : Bytes) :
    (q.setReceive path).handle own bytes = (q.handle own bytes).setReceive path := by
  rw [handle, handle]
  cases Frame.parse bytes <;> rfl

theorem handles_setReceive (q : Peer size depth) (path : ReceivePath size) (own : Address)
    (frames : List Bytes) :
    frames.foldl (fun q => q.handle own) (q.setReceive path)
      = (frames.foldl (fun q => q.handle own) q).setReceive path := by
  induction frames generalizing q with
  | nil => rfl
  | cons bytes rest ih => rw [List.foldl_cons, List.foldl_cons, handle_setReceive, ih]

/-- The service loop is the poll loop, with each frame that it hands out handled in its turn. -/
theorem serveRounds_eq (q : Peer size depth) (own : Address) (n : Nat) :
    q.serveRounds own n
      = ((q.station.receive.serveRounds n).1.foldl (fun q => q.handle own) q).setReceive
        (q.station.receive.serveRounds n).2 := by
  induction n generalizing q with
  | zero => rfl
  | succ n ih =>
    rw [serveRounds, ih, serve, handles_setReceive, ReceivePath.serveRounds, List.foldl_append]
    rfl

/-- Only a frame from the master to the own address makes an idle station load one. -/
theorem isPoll_of_handle (hidle : q.station.transmit.phase = .idle)
    (hlen : payload.length ≤ maxPayloadSize)
    (hloaded : (q.handle own (Frame.wire destination source payload)).isLoaded = true) :
    own = destination ∧ source = Address.master := by
  simp only [handle, Frame.parse_wire _ _ hlen, isLoaded] at hloaded
  have hanswers := q.station.transmit.answerPoll_answers q.outbox
    ⟨.announce destination source (UInt16.ofNat payload.length), payload⟩ own
  generalize q.station.transmit.answerPoll q.outbox
    ⟨.announce destination source (UInt16.ofNat payload.length), payload⟩ own = outcome
    at hanswers hloaded
  cases hanswers with
  | still result =>
    rw [TransmitPath.isTransmitting, hidle] at hloaded
    cases hloaded
  | pong hreply =>
    have hpoll := Outbox.isPoll_of_reply? hreply
    exact ⟨hpoll.destination.symm, hpoll.source⟩
  | sent hreply =>
    have hpoll := Outbox.isPoll_of_reply? hreply
    exact ⟨hpoll.destination.symm, hpoll.source⟩

namespace AtRest

theorem stores_iff (h : q.AtRest) (source : Address) (hlen : payload.length ≤ maxPayloadSize) :
    q.Stores (Frame.wire destination source payload)
      ↔ q.identity.accepts destination = true := by
  rw [Stores, hear_receive]
  exact h.receiver.stores_iff source hlen q.holdsHeader

/-- Only a poll of this station makes it load a frame. -/
theorem isPoll_of_isLoaded (h : q.AtRest) (hlen : payload.length ≤ maxPayloadSize) {n : Nat}
    (hloaded : (q.respond (Frame.wire destination source payload) n).isLoaded = true) :
    q.address = destination ∧ source = Address.master := by
  rw [respond, serveRounds_eq, hear_receive] at hloaded
  rcases (h.receiver.serves destination source hlen q.holdsHeader).frames n with hnone | hone
  · rw [hnone] at hloaded
    have hidle : q.isLoaded = false := by
      rw [isLoaded, TransmitPath.isTransmitting, h.transmitter]
      rfl
    exact absurd (hidle.symm.trans hloaded) Bool.false_ne_true
  · rw [hone, List.foldl_cons, List.foldl_nil, hear, handle_setReceive] at hloaded
    exact isPoll_of_handle h.transmitter hlen hloaded

/-- The service loop comes to its end. -/
theorem comes_to_rest (h : q.AtRest) (destination source : Address)
    (hlen : payload.length ≤ maxPayloadSize) {n : Nat}
    (hn : (q.hear (Frame.wire destination source payload)).station.receive.buffered
      + (q.hear (Frame.wire destination source payload)).station.receive.unhandled ≤ n) :
    (q.respond (Frame.wire destination source payload) n).station.receive.status = .idle := by
  rw [hear_receive] at hn
  rw [respond, serveRounds_eq, setReceive_receive, hear_receive]
  exact (h.receiver.serves destination source hlen q.holdsHeader).idle n hn

end AtRest

end Peer

/-! ### The bus task of a node -/

namespace Node

/-- The station of a node with its outbox. -/
def peer (n : Node) : Peer defaultRingSize defaultOutboxDepth where
  station := n.station
  outbox := n.outbox
  holdsHeader := by decide

theorem busSteps_add (n : Node) (first second : Nat) :
    n.busSteps (first + second) = (n.busSteps first).busSteps second := by
  induction first generalizing n with
  | zero => rw [Nat.zero_add, busSteps]
  | succ first ih =>
    rw [Nat.add_right_comm, busSteps, busSteps]
    cases hstep : n.busStep? with
    | some m => exact ih m
    | none =>
      cases second with
      | zero => rfl
      | succ second => simp only [busSteps, hstep]

theorem handleFrame_peer (n : Node) (bytes : Bytes) :
    (n.handleFrame bytes).peer = n.peer.handle n.identity.address bytes
      ∧ (n.handleFrame bytes).identity = n.identity := by
  rw [handleFrame, Peer.handle]
  cases Frame.parse bytes with
  | error e => exact ⟨rfl, rfl⟩
  | ok frame =>
    simp only []
    split <;> exact ⟨rfl, rfl⟩

/-- One round of the bus task is one round of the service loop. -/
theorem busSteps_round (n : Node) (hbus : n.bus = .examining) :
    ∃ steps, (n.busSteps steps).bus = .examining ∧ (n.busSteps steps).identity = n.identity
      ∧ (n.busSteps steps).peer = n.peer.serve n.identity.address := by
  have hround : n.peer.serve n.identity.address
      = (n.station.receive.serve.1.toList.foldl (fun q => q.handle n.identity.address)
        n.peer).setReceive n.station.receive.serve.2 := rfl
  rw [hround, ReceivePath.serve]
  cases hstatus : n.station.receive.status with
  | idle => exact ⟨0, hbus, rfl, rfl⟩
  | completeFrame =>
    cases hcopy : n.station.receive.copyFrame? with
    | none =>
      refine ⟨3, ?_⟩
      simp only [busSteps, busStep?, hbus, hstatus, toBusTask, hcopy]
      exact ⟨trivial, rfl, rfl⟩
    | some bytes =>
      let copied := n.toBusTask (.handling bytes)
      let handled := copied.handleFrame bytes
      obtain ⟨hpeer, hidentity⟩ : handled.peer = n.peer.handle n.identity.address bytes
          ∧ handled.identity = n.identity := copied.handleFrame_peer bytes
      have hlook : n.busStep? = some (n.toBusTask .copying) := by
        simp only [busStep?, hbus, hstatus]
      have hcopies : (n.toBusTask .copying).busStep? = some copied := by
        simp only [busStep?, toBusTask, hcopy, copied]
      have hhandles : copied.busStep? = some (handled.toBusTask .retiring) := rfl
      have hretires : (handled.toBusTask .retiring).busStep?
          = some ((handled.setReceive handled.peer.station.receive.retire.2).toBusTask
            .examining) := rfl
      refine ⟨4, ?_⟩
      simp only [busSteps, hlook, hcopies, hhandles, hretires]
      refine ⟨rfl, hidentity, ?_⟩
      show handled.peer.setReceive handled.peer.station.receive.retire.2 = _
      rw [hpeer, Peer.handle_receive]
      rfl
  | headerMismatch =>
    refine ⟨2, ?_⟩
    simp only [busSteps, busStep?, hbus, hstatus, toBusTask]
    exact ⟨trivial, rfl, rfl⟩
  | faulted =>
    refine ⟨2, ?_⟩
    cases hkind : n.station.receive.recover.1 with
    | none =>
      simp only [busSteps, busStep?, hbus, hstatus, toBusTask, hkind]
      exact ⟨trivial, rfl, rfl⟩
    | some kind =>
      simp only [busSteps, busStep?, hbus, hstatus, toBusTask, hkind]
      exact ⟨trivial, rfl, rfl⟩

/-- **The bus task is the service loop**, run with the own address: after enough steps it has gone
through any number of rounds. -/
theorem busSteps_rounds (n : Node) (hbus : n.bus = .examining) (rounds : Nat) :
    ∃ steps, (n.busSteps steps).bus = .examining
      ∧ (n.busSteps steps).peer = n.peer.serveRounds n.identity.address rounds := by
  induction rounds generalizing n with
  | zero => exact ⟨0, hbus, rfl⟩
  | succ rounds ih =>
    obtain ⟨first, hexamining, hidentity, hpeer⟩ := n.busSteps_round hbus
    obtain ⟨others, hlast, hrest⟩ := ih (n.busSteps first) hexamining
    refine ⟨first + others, ?_⟩
    rw [busSteps_add, Peer.serveRounds, ← hpeer, ← hidentity]
    exact ⟨hlast, hrest⟩

end Node

namespace Peer

/-! ### All stations -/

variable {ι : Type*} {sizes : ι → RingSize} {depths : ι → Nat} {frame : Bytes}

/-- **One station takes a frame for one, and at most one answers any frame.** If nobody sees all
traffic, a frame for the master or for a node goes into the ring of the station with that address
and of no other. Whatever the destination, and whoever sees all traffic, after any numbers of rounds
of the service loops the only station with a frame loaded is the one with that address, and there is
none if the frame is not from the master. The loops come to their end. -/
theorem one_takes_and_answers (peers : ∀ i, Peer (sizes i) (depths i))
    (hrest : ∀ i, (peers i).AtRest) (hvalid : ∀ i, (peers i).identity.validate = .ok ())
    (hdistinct : ∀ i j, (peers i).address = (peers j).address → i = j)
    (hframe : Frame.encode destination source payload = .ok frame) :
    ((∀ i, (peers i).identity.promiscuous = false) →
        destination = Address.master ∨ destination.isNode = true →
        (∀ i, (peers i).Stores frame ↔ (peers i).address = destination)
          ∧ ∀ i j, (peers i).Stores frame → (peers j).Stores frame → i = j)
      ∧ (∀ (rounds : ι → Nat) (i : ι),
        ((peers i).respond frame (rounds i)).isLoaded = true →
          ((peers i).address = destination ∧ source = Address.master)
            ∧ ∀ j, ((peers j).respond frame (rounds j)).isLoaded = true → i = j)
      ∧ ∀ (i : ι) (n : Nat),
        ((peers i).hear frame).station.receive.buffered
            + ((peers i).hear frame).station.receive.unhandled ≤ n →
          ((peers i).respond frame n).station.receive.status = .idle := by
  obtain ⟨hlen, rfl⟩ := (Frame.encode_eq_ok_iff ..).1 hframe
  refine ⟨?_, ?_, ?_⟩
  · intro hplain hsingle
    have hassignable : destination.isAssignable = true := by
      rcases hsingle with rfl | hnode
      · decide
      · exact Address.isAssignable_of_isNode hnode
    have hstores : ∀ i, (peers i).Stores (Frame.wire destination source payload)
        ↔ (peers i).address = destination := fun i =>
      ((hrest i).stores_iff source hlen).trans
        (Identity.accepts_iff (hvalid i) (hplain i) hassignable)
    exact ⟨hstores, fun i j hi hj =>
      hdistinct i j (((hstores i).1 hi).trans ((hstores j).1 hj).symm)⟩
  · intro rounds i hi
    have hpoll := (hrest i).isPoll_of_isLoaded hlen hi
    refine ⟨hpoll, fun j hj => hdistinct i j ?_⟩
    exact hpoll.1.trans ((hrest j).isPoll_of_isLoaded hlen hj).1.symm
  · intro i n hn
    exact (hrest i).comes_to_rest destination source hlen hn

/-- A master that may see all traffic, a node in the keypads' group and one in no group, each with a
ring of its own size and the same frame waiting. -/
def household (promiscuous : Bool) (i : Fin 3) :
    Peer (![defaultRingSize, ⟨4, by decide⟩, ⟨3, by decide⟩] i) defaultOutboxDepth where
  station := .blank (![{ Identity.plain 0 with promiscuous := promiscuous },
    { Identity.plain 3 with groups := ⟨[Address.pinpadEvents], by decide⟩ }, .plain 5] i)
  outbox := ⟨[Frame.wire 0 7 [1]]⟩
  holdsHeader := by revert i; decide

theorem household_responds :
    (∀ i, (household false i).Stores (Frame.wire 3 0 PollMessage.pingWord) ↔ i = 1)
      ∧ ((household true 0).hear (Frame.wire 3 0 PollMessage.pingWord)).station.receive.buffered
        = 10
      ∧ ((household true 1).respond (Frame.wire 3 0 PollMessage.pingWord) 10).isLoaded = true
      ∧ ∀ i,
        (((household true i).respond (Frame.wire 3 0 PollMessage.pingWord) 10).isLoaded = true →
          i = 1)
        ∧ ((household true i).respond
            (Frame.wire 3 0 PollMessage.pingWord) 10).station.receive.status = .idle := by
  have hrest : ∀ promiscuous i, (household promiscuous i).AtRest := fun promiscuous i =>
    ⟨ReceivePath.fresh_atRest _, rfl⟩
  have hframe : Frame.encode 3 0 PollMessage.pingWord
      = .ok (Frame.wire 3 0 PollMessage.pingWord) := rfl
  obtain ⟨hstores, -⟩ := one_takes_and_answers (household false) (hrest false)
    (by decide +kernel) (by decide +kernel) hframe
  obtain ⟨-, hloads, hidle⟩ := one_takes_and_answers (household true) (hrest true)
    (by decide +kernel) (by decide +kernel) hframe
  have haddress : ∀ promiscuous i, (household promiscuous i).address = 3 ↔ i = 1 := by
    decide +kernel
  have hbuffered : ∀ i, ((household true i).hear
        (Frame.wire 3 0 PollMessage.pingWord)).station.receive.buffered
      + ((household true i).hear
        (Frame.wire 3 0 PollMessage.pingWord)).station.receive.unhandled ≤ 10 := by
    decide +kernel
  refine ⟨fun i => ?_, by decide +kernel, by decide +kernel, fun i => ⟨fun hi => ?_, ?_⟩⟩
  · exact ((hstores (by decide +kernel) (.inr (by decide))).1 i).trans (haddress false i)
  · exact (haddress true i).1 (hloads (fun _ => 10) i hi).1.1
  · exact hidle i 10 (hbuffered i)

end Peer

end MultidropBus
