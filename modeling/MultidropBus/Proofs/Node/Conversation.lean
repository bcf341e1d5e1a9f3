import MultidropBus.Proofs.Node.Moves
import MultidropBus.Proofs.Receive.Copies

/-!
# A node speaks only when polled, and handles nothing twice

The bus task copies a frame, handles the copy and retires the frame, and the handler may make passes
in between. A frame gets into the transmit slot in one step only: when the copy of a buffered poll
is handled, and then it is one frame (`Node.Replies`). Every other move of the node leaves the slot
alone (`Node.Silent`).

An observer counts the bytes that went through the ring, and notes every copy that is handled with
its place in the stream. No two of them overlap. Usually a handled frame is retired next. If faults
have hidden it meanwhile, it is owed, until the recovery that must come next takes the cursor past
it (`Conversation.Stands`).
-/

namespace MultidropBus

open Segment

/-! ### The slot -/

namespace TransmitPath

end TransmitPath

namespace Node

variable {n m k : Node}

/-- From one node to the other nothing was put into the slot: what is put there waits for the
interrupt, which is requested. -/
structure Silent (n m : Node) : Prop where
  bytes : m.station.transmit.slot.bytes = n.station.transmit.slot.bytes
  length : m.station.transmit.slot.length = n.station.transmit.slot.length
  pending : m.phase = .pending → n.phase = .pending
  requests : m.board.requests ≤ n.board.requests

theorem Silent.trans (hfirst : n.Silent m) (hsecond : m.Silent k) : n.Silent k where
  bytes := hsecond.bytes.trans hfirst.bytes
  length := hsecond.length.trans hfirst.length
  pending := fun hpending => hfirst.pending (hsecond.pending hpending)
  requests := hsecond.requests.trans hfirst.requests

end Node

/-! ### The observer -/

/-- A node since its start, and what an observer noted about its bus task. -/
structure Conversation where
  node : Node
  /-- Every byte that went into the ring, in order. -/
  stored : Bytes
  /-- How many of them left the ring. -/
  taken : Nat
  /-- The copies that were handled as frames, each with its place among the stored bytes. -/
  handled : List (Nat × Bytes)

namespace Conversation

def ring (c : Conversation) : Ring defaultRingSize := c.node.station.receive.ring

/-- The bus task went on to `n`. -/
def advance (c : Conversation) (n : Node) : Conversation :=
  { c with
    node := n
    taken := c.taken + (n.station.receive.ring.read - c.ring.read).toNat }

/-- A pass may put bytes into the ring. A step of the bus task may take some out of it, and is noted
if it handles a copy. -/
def move (c : Conversation) : Node.Move → Conversation
  | .pass p =>
    let after := c.node.move (.pass p)
    { c with
      node := after
      stored := c.stored ++ after.station.receive.ring.toList.drop c.ring.toList.length }
  | .bus =>
    { c.advance (c.node.move .bus) with
      handled :=
        match c.node.bus with
        | .handling bytes => c.handled ++ [(c.taken, bytes)]
        | _ => c.handled }
  | m => { c with node := c.node.move m }

/-- From the start of a node on. -/
def run (flash : Flash) (board : Board) (moves : List Node.Move) : Conversation :=
  moves.foldl move ⟨Node.boot flash board, [], 0, []⟩

theorem run_snoc (flash : Flash) (board : Board) (moves : List Node.Move) (m : Node.Move) :
    run flash board (moves ++ [m]) = (run flash board moves).move m := by
  rw [run, List.foldl_append]
  rfl

/-- There are never more unhandled faults than a word can count. -/
def KeepsCount (flash : Flash) (board : Board) (moves : List Node.Move) : Prop :=
  ∀ earlier, earlier <+: moves →
    ((Node.boot flash board).run earlier).station.receive.unhandled < UInt32.size

instance {flash : Flash} {board : Board} {moves : List Node.Move} :
    Decidable (KeepsCount flash board moves) :=
  decidable_of_iff (∀ earlier ∈ moves.inits,
      ((Node.boot flash board).run earlier).station.receive.unhandled < UInt32.size) <| by
    simp only [KeepsCount, List.mem_inits]

/-! ### The invariant -/

/-- All these copies end in front of a position. -/
def Behind (handled : List (Nat × Bytes)) (position : Nat) : Prop :=
  ∀ x ∈ handled, x.1 + x.2.length ≤ position

theorem Behind.mono {handled : List (Nat × Bytes)} {first second : Nat} (h : Behind handled first)
    (hle : first ≤ second) : Behind handled second := fun x hx => (h x hx).trans hle

theorem Behind.concat {handled : List (Nat × Bytes)} {position : Nat} {bytes : Bytes} {after : Nat}
    (h : Behind handled position) (hle : position + bytes.length ≤ after) :
    Behind (handled ++ [(position, bytes)]) after := by
  intro x hx
  rcases List.mem_append.1 hx with hold | hnew
  · exact (h x hold).trans ((Nat.le_add_right _ _).trans hle)
  · rw [List.mem_singleton.1 hnew]
    exact hle

/-- How the handled copies stand to the read cursor, by where the bus task stands. -/
inductive Stands (j : Journal defaultRingSize) (segments : List Segment)
    (handled : List (Nat × Bytes)) (task : BusTask) : Prop
  /-- All of them are behind it. What is about to be handled or skipped is spared. -/
  | clear (hbehind : Behind handled j.taken)
    (hhandling : ∀ bytes, task = .handling bytes → j.Copied segments bytes)
    (hskipping : task = .skipping → j.Spared segments 1)
  /-- The last of them is at it, about to be retired, or hidden until a recovery. -/
  | owing {earlier : List (Nat × Bytes)} {bytes : Bytes}
    (htask : task = .retiring
      ∨ (task = .examining ∨ task = .recovering) ∧ j.Hidden segments bytes.length)
    (hhandled : handled = earlier ++ [(j.taken, bytes)]) (hbehind : Behind earlier j.taken)
    (hcopied : j.Copied segments bytes)

/-- A chronicle of the receive path tells what the observer noted. -/
structure Sound (c : Conversation) (k : Chronicle defaultRingSize) (segments : List Segment) :
    Prop where
  path : k.journal.path = c.node.station.receive
  stored : k.journal.stored = c.stored
  taken : k.journal.taken = c.taken
  tells : k.Tells segments
  between : k.journal.Between segments
  stands : Stands k.journal segments c.handled c.node.bus
  apart : c.handled.Pairwise fun a b => a.1 + a.2.length ≤ b.1
  copied : ∀ x ∈ c.handled, headerSize ≤ x.2.length ∧ x.2 <+: c.stored.drop x.1

variable {c : Conversation} {j : Journal defaultRingSize} {k d : Chronicle defaultRingSize}
  {segments after : List Segment} {handled : List (Nat × Bytes)} {task : BusTask} {n : Node}

theorem Stands.handling {bytes : Bytes} (h : Stands j segments handled (.handling bytes)) :
    j.Copied segments bytes := by
  cases h with
  | clear _ hhandling => exact hhandling bytes rfl
  | owing htask => simp at htask

theorem Stands.skipping (h : Stands j segments handled .skipping) : j.Spared segments 1 := by
  cases h with
  | clear _ _ hskipping => exact hskipping rfl
  | owing htask => simp at htask

/-- Only a frame to be retired, or hidden, is at the cursor. -/
theorem Sound.behind (h : c.Sound k segments) (hbus : c.node.bus = task)
    (hretiring : task ≠ .retiring) (hexamining : task ≠ .examining)
    (hrecovering : task ≠ .recovering) : Behind c.handled k.journal.taken := by
  have hstands := h.stands
  rw [hbus] at hstands
  cases hstands with
  | clear hbehind => exact hbehind
  | owing htask =>
    rcases htask with hsame | ⟨hsame | hsame, -⟩
    · exact absurd hsame hretiring
    · exact absurd hsame hexamining
    · exact absurd hsame hrecovering

/-- A task that is about to handle nothing, with all copies behind the cursor. -/
theorem Behind.stands (h : Behind handled j.taken) (hhandling : ∀ bytes, task ≠ .handling bytes)
    (hskipping : task ≠ .skipping) : Stands j segments handled task :=
  .clear h (fun bytes hbytes => absurd hbytes (hhandling bytes)) fun hskip => absurd hskip hskipping

/-! ### The receiver -/

/-- What the receiver hears meanwhile changes nothing about it. -/
theorem Stands.hears (h : Stands k.journal segments handled task)
    (hhears : k.Hears d segments after) : Stands d.journal after handled task := by
  cases h with
  | clear hbehind hhandling hskipping =>
    refine .clear (hhears.taken ▸ hbehind) ?_ ?_
    · exact fun bytes hbytes => hhears.copied (hhandling bytes hbytes)
    · exact fun hskip => hhears.spared 1 (hskipping hskip)
  | @owing earlier bytes htask hhandled hbehind hcopied =>
    have hlast : handled = earlier ++ [(d.journal.taken, bytes)] := by
      rw [hhears.taken]
      exact hhandled
    refine .owing (htask.imp_right (And.imp_right (hhears.hidden _))) hlast ?_
      (hhears.copied hcopied)
    rw [hhears.taken]
    exact hbehind

/-- The ring holds what was stored and not taken. -/
theorem Sound.toList (h : c.Sound k segments) : c.ring.toList = c.stored.drop c.taken := by
  rw [← h.stored, ← h.taken, ← h.tells.cut.tracks.ring.toList, h.path]
  rfl

theorem Sound.pass (h : c.Sound k segments) (p : Node.Pass) :
    ∃ d after, (c.move (.pass p)).Sound d after := by
  obtain ⟨events, hreceive, -, hbus, -⟩ := c.node.pass_receives p
  obtain ⟨after, hhears⟩ := Chronicle.hears_all h.tells h.between events
  have hpath := k.hears_path events
  rw [h.path, ← hreceive] at hpath
  generalize (events.map ReceiveStep.hear).foldl Chronicle.step k = d at hhears hpath
  have hstored : d.journal.stored = (c.move (.pass p)).stored := by
    obtain ⟨more, hmore⟩ := hhears.stored
    have hle := h.tells.cut.tracks.ring.taken_le
    have hring : (c.node.move (.pass p)).station.receive.ring.toList
        = d.journal.stored.drop k.journal.taken := by
      rw [← hhears.taken, ← hpath]
      exact hhears.tells.cut.tracks.ring.toList
    show _ = c.stored ++ (c.node.move (.pass p)).station.receive.ring.toList.drop _
    rw [hring, h.toList, ← h.stored, ← h.taken, List.length_drop, List.drop_drop,
      Nat.add_sub_cancel' hle, ← hmore, List.drop_left]
  refine ⟨d, after, hpath, hstored, hhears.taken.trans h.taken, hhears.tells, hhears.between, ?_,
    h.apart, ?_⟩
  · show Stands d.journal after c.handled (c.node.move (.pass p)).bus
    rw [hbus]
    exact h.stands.hears hhears
  · intro x hx
    obtain ⟨hlong, hfront⟩ := h.copied x hx
    refine ⟨hlong, hfront.trans ?_⟩
    rw [← hstored, ← h.stored]
    exact hhears.stored.drop x.1

/-! ### The bus task -/

theorem advance_same (c : Conversation) (hreceive : n.station.receive = c.node.station.receive) :
    c.advance n = { c with node := n } := by
  rw [advance, ring, hreceive]
  simp

theorem move_bus (hbus : ∀ bytes, c.node.bus ≠ .handling bytes) :
    c.move .bus = c.advance (c.node.move .bus) := by
  simp only [move]
  rfl

theorem move_bus_handling {bytes : Bytes} (hbus : c.node.bus = .handling bytes) :
    c.move .bus = { c.advance (c.node.move .bus) with
      handled := c.handled ++ [(c.taken, bytes)] } := by
  simp only [move, hbus]

/-- The bus task moves on, and leaves the receive path alone. -/
theorem Sound.quiet (h : c.Sound k segments) (hreceive : n.station.receive = c.node.station.receive)
    (hstands : Stands k.journal segments c.handled n.bus) : (c.advance n).Sound k segments := by
  rw [c.advance_same hreceive]
  exact ⟨h.path.trans hreceive.symm, h.stored, h.taken, h.tells, h.between, hstands, h.apart,
    h.copied⟩

/-- The bus task handles its copy, and is to retire the frame next. -/
theorem Sound.handles (h : c.Sound k segments) {bytes : Bytes} (hbus : c.node.bus = .handling bytes)
    (hreceive : n.station.receive = c.node.station.receive) (hnext : n.bus = .retiring) :
    Sound { c.advance n with handled := c.handled ++ [(c.taken, bytes)] } k segments := by
  have hstands := h.stands
  rw [hbus] at hstands
  have hcopied := hstands.handling
  have hbehind := h.behind hbus nofun nofun nofun
  have hlast : c.handled ++ [(c.taken, bytes)] = c.handled ++ [(k.journal.taken, bytes)] := by
    rw [h.taken]
  rw [c.advance_same hreceive]
  refine ⟨h.path.trans hreceive.symm, h.stored, h.taken, h.tells, h.between, ?_, ?_, ?_⟩
  · exact .owing (.inl hnext) hlast hbehind hcopied
  · refine List.pairwise_append.2 ⟨h.apart, List.pairwise_singleton _ _, ?_⟩
    intro a ha b hb
    rw [List.mem_singleton.1 hb, ← h.taken]
    exact hbehind a ha
  · intro x hx
    rcases List.mem_append.1 hx with hold | hnew
    · exact h.copied x hold
    · rw [List.mem_singleton.1 hnew, ← h.taken, ← h.stored]
      exact ⟨hcopied.headerSize_le, hcopied.front⟩

/-- The bus task does something to the receive path. -/
theorem Sound.polls (h : c.Sound k segments) {s : ReceiveStep} (hs : ∀ event, s ≠ .hear event)
    (hreceive : (k.step s).journal.path = n.station.receive) (htells : (k.step s).Tells segments)
    (hbetween : (k.step s).journal.Between segments)
    (hstands : Stands (k.step s).journal segments c.handled n.bus) :
    (c.advance n).Sound (k.step s) segments := by
  obtain ⟨hstored, htaken⟩ := k.journal.step_polls hs
  refine ⟨hreceive, hstored.trans h.stored, htaken.trans ?_, htells, hbetween, hstands, h.apart,
    h.copied⟩
  show _ = c.taken + (n.station.receive.ring.read - c.node.station.receive.ring.read).toNat
  rw [← hreceive, ← h.path, ← h.taken]
  rfl

/-- A look at the bus finds a hidden frame behind a fault. -/
theorem Sound.looks (h : c.Sound k segments) (hbus : c.node.bus = .examining) :
    Stands k.journal segments c.handled c.node.station.receive.status.next := by
  have hstands := h.stands
  rw [hbus] at hstands
  rw [← h.path]
  cases hstands with
  | clear hbehind =>
    refine .clear hbehind ?_ ?_
    · intro bytes hnext
      cases hstatus : k.journal.path.status <;> simp [hstatus, BusStatus.next] at hnext
    · intro hnext
      refine h.between.spared_one h.tells.cut ?_
      cases hstatus : k.journal.path.status <;> simp [hstatus, BusStatus.next] at hnext ⊢
  | owing htask hhandled hbehind hcopied =>
    obtain ⟨-, hhidden⟩ := htask.resolve_left nofun
    have hstatus := hcopied.faulted h.between h.tells.cut hhidden
    exact .owing (.inr ⟨.inr (by rw [hstatus]; rfl), hhidden⟩) hhandled hbehind hcopied

theorem Sound.retires (h : c.Sound k segments) :
    Stands k.journal.retire segments c.handled .examining := by
  cases h.stands with
  | clear hbehind => exact (hbehind.mono (Nat.le_add_right _ _)).stands nofun nofun
  | owing _ hhandled hbehind hcopied =>
    rcases hcopied.retire h.between h.tells.cut with htaken | ⟨hsame, hhidden⟩
    · rw [hhandled]
      exact (hbehind.concat (Nat.le_of_eq htaken.symm)).stands nofun nofun
    · rw [hsame]
      exact .owing (.inr ⟨.inl rfl, hhidden⟩) hhandled hbehind hcopied

/-- A recovery takes the cursor past a hidden frame. -/
theorem Sound.recovers (h : c.Sound k segments) (hbus : c.node.bus = .recovering) :
    Stands k.journal.recover segments c.handled .examining := by
  have hstands := h.stands
  rw [hbus] at hstands
  cases hstands with
  | clear hbehind =>
    have htaken := (k.journal.step_polls (s := .recover) nofun).2
    exact (hbehind.mono (htaken ▸ Nat.le_add_right _ _)).stands nofun nofun
  | owing htask hhandled hbehind hcopied =>
    obtain ⟨-, hhidden⟩ := htask.resolve_left nofun
    have hstatus := hcopied.faulted h.between h.tells.cut hhidden
    rw [hhandled]
    exact (hbehind.concat (hcopied.spared.recover h.between h.tells.cut hstatus)).stands nofun nofun

theorem Sound.bus (h : c.Sound k segments) : ∃ d, (c.move .bus).Sound d segments := by
  have hcut := h.tells.cut
  have halive := h.tells.alive
  have hstands := h.stands
  have hstep := c.node.busStep_cases
  generalize hafter : c.node.move .bus = n at hstep
  -- Unless a copy is handled, the observer only follows the cursor.
  have hplain {task : BusTask} (hbus : c.node.bus = task)
      (hhandling : ∀ bytes, task ≠ .handling bytes) {d : Chronicle defaultRingSize}
      (hsound : (c.advance n).Sound d segments) : ∃ d, (c.move .bus).Sound d segments := by
    rw [move_bus (hbus ▸ hhandling), hafter]
    exact ⟨d, hsound⟩
  cases hstep with
  | beside hbus hbeside =>
    have hsound : (c.advance n).Sound k segments :=
      h.quiet (congrArg _ hbeside.station) (hbeside.bus ▸ hstands)
    rcases hbus with hbus | hbus
    · exact hplain hbus nofun hsound
    · exact hplain hbus nofun hsound
  | begins hbus =>
    have hbehind := h.behind hbus nofun nofun nofun
    exact hplain hbus nofun (h.quiet rfl (hbehind.stands nofun nofun))
  | wakes hbus =>
    have hbehind := h.behind hbus nofun nofun nofun
    exact hplain hbus nofun (h.quiet rfl (hbehind.stands nofun nofun))
  | looks hbus => exact hplain hbus nofun (h.quiet rfl (h.looks hbus))
  | copies hbus hcopy =>
    have hbehind := h.behind hbus nofun nofun nofun
    rw [← h.path] at hcopy
    refine hplain hbus nofun (h.quiet rfl (.clear hbehind ?_ nofun))
    rintro _ ⟨⟩
    exact h.between.copied hcut hcopy
  | misses hbus =>
    have hbehind := h.behind hbus nofun nofun nofun
    exact hplain hbus nofun (h.quiet rfl (hbehind.stands nofun nofun))
  | ignores hbus =>
    rw [move_bus_handling hbus, hafter]
    exact ⟨k, h.handles hbus rfl rfl⟩
  | answers hbus =>
    rw [move_bus_handling hbus, hafter]
    exact ⟨k, h.handles hbus rfl rfl⟩
  | retires hbus =>
    refine hplain hbus nofun (h.polls (s := .retire) nofun ?_ ⟨hcut.retire, halive.step .retire⟩
      (h.between.retire hcut) h.retires)
    exact congrArg (fun p => p.retire.2) h.path
  | skips hbus =>
    have hbehind := h.behind hbus nofun nofun nofun
    rw [hbus] at hstands
    refine hplain hbus nofun (h.polls (s := .skip) nofun ?_ ⟨hcut.skip, halive.step .skip⟩
      (h.between.skip hcut hstands.skipping)
      ((hbehind.mono (Nat.le_add_right _ _)).stands nofun nofun))
    exact congrArg (fun p => p.skip.2) h.path
  | recovers hbus =>
    refine hplain hbus nofun (h.polls (s := .recover) nofun ?_
      ⟨hcut.recover, halive.step .recover⟩ (h.between.recover hcut) (h.recovers hbus))
    show k.journal.recover.path = _
    rw [Journal.recover_path, h.path]

/-! ### Runs -/

theorem Sound.beside (h : c.Sound k segments) (hbeside : c.node.Beside n) :
    Sound { c with node := n } k segments := by
  have hreceive : n.station.receive = c.node.station.receive := congrArg _ hbeside.station
  rw [← c.advance_same hreceive]
  exact h.quiet hreceive (hbeside.bus ▸ h.stands)

theorem Sound.move (h : c.Sound k segments) (m : Node.Move) :
    ∃ d after, (c.move m).Sound d after := by
  have hcases := c.node.move_cases m
  cases m with
  | pass p => exact h.pass p
  | bus => exact ⟨_, _, h.bus.choose_spec⟩
  | _ =>
    obtain ⟨p, hm⟩ | hm | hbeside := hcases
    · cases hm
    · cases hm
    · exact ⟨k, segments, h.beside hbeside⟩

theorem boot_sound (flash : Flash) (board : Board) :
    Sound ⟨Node.boot flash board, [], 0, []⟩ (.fresh flash.identity.1) [] := by
  have hstart : (Node.boot flash board).station.receive = .fresh flash.identity.1
      ∧ ((Node.boot flash board).bus = .absent ∨ (Node.boot flash board).bus = .spawned) := by
    simp only [Node.boot]
    split
    · exact ⟨rfl, .inl rfl⟩
    · exact ⟨rfl, .inr rfl⟩
  have hstands : Stands (Chronicle.fresh flash.identity.1).journal [] []
      (Node.boot flash board).bus := by
    have hbehind : Behind [] 0 := fun x hx => absurd hx List.not_mem_nil
    rcases hstart.2 with hbus | hbus
    · rw [hbus]
      exact hbehind.stands (by simp) (by simp)
    · rw [hbus]
      exact hbehind.stands (by simp) (by simp)
  exact ⟨hstart.1.symm, rfl, rfl, Chronicle.fresh_tells _, Journal.fresh_between _, hstands, .nil,
    fun x hx => absurd hx List.not_mem_nil⟩

theorem run_sound (flash : Flash) (board : Board) (moves : List Node.Move) :
    ∃ k segments, (run flash board moves).Sound k segments := by
  induction moves using List.reverseRecOn with
  | nil => exact ⟨_, _, boot_sound flash board⟩
  | append_singleton earlier m ih =>
    obtain ⟨k, segments, h⟩ := ih
    rw [run_snoc]
    exact h.move m

end Conversation

end MultidropBus
