import MultidropBus.Proofs.Node.Transmission

/-!
# When a node drives the line

Once the serial interface has taken its settings, a node drives the line exactly while a frame is on
its way out. Before that the pin stands low, whatever the polarity of the transceiver. So a node
whose transceiver drives while the pin is low drives the line from the moment the pin is set up, and
if the settings are refused it is never released.
-/

namespace MultidropBus

namespace Node

/-- The transceiver drives the line. -/
def isDriving (n : Node) : Bool :=
  DriverEnable.isAsserted ⟨n.identity.driveActiveLow, n.board.driveHigh⟩

variable {n : Node}

theorem isDriving_iff (n : Node) : n.isDriving = true
    ↔ n.board.driveHigh = DriverEnable.assertedLevel n.identity.driveActiveLow := by
  rw [isDriving, DriverEnable.isAsserted]
  cases n.board.driveHigh <;> cases n.identity.driveActiveLow <;> decide

/-! ### Settings that are taken -/

theorem transmission_moves (flash : Flash) (board : Board) (moves : List Move) :
    (Transmission.run flash board (moves.map .move)).node = (boot flash board).run moves := by
  induction moves using List.reverseRecOn with
  | nil => rfl
  | append_singleton earlier m ih =>
    rw [List.map_append, List.map_singleton, Transmission.run_snoc, run_snoc, ← ih]
    rfl

theorem run_isDriving_taken (flash : Flash) {board : Board} (hwilling : board.refusal = none)
    (moves : List Move) : ((boot flash board).run moves).isDriving = true
      ↔ ((boot flash board).run moves).phase = .sending
        ∨ ((boot flash board).run moves).phase = .draining := by
  have hdriving := (Transmission.run_sound flash hwilling (moves.map .move)).driving
  rw [transmission_moves] at hdriving
  rw [isDriving_iff, run_identity, boot_identity, hdriving]

/-! ### Settings that are refused -/

/-- The node stopped before the handler was put in place and the tasks were spawned. -/
structure Halted (n : Node) : Prop where
  installed : n.installed = false
  bus : n.bus = .absent
  low : n.board.driveHigh = false
  idle : n.phase = .idle

theorem boot_halted (flash : Flash) {board : Board} {e : SettingsError}
    (hrefused : board.refusal = some e) : (boot flash board).Halted := by
  obtain ⟨hinstalled, hbus, hidle, hout⟩ := boot_refused flash hrefused
  exact ⟨hinstalled, hbus, congrArg Outputs.driveHigh hout, hidle⟩

theorem Halted.move (h : n.Halted) (m : Move) : (n.move m).Halted := by
  obtain ⟨p, rfl⟩ | rfl | hbeside := n.move_cases m
  · obtain ⟨-, hraised⟩ | ⟨hinstalled, -⟩ := n.pass_cases p
    · rw [hraised]
      exact ⟨h.installed, h.bus, h.low, h.idle⟩
    · rw [h.installed] at hinstalled
      cases hinstalled
  · show (n.busStep?.getD n).Halted
    rw [busStep?, h.bus]
    exact h
  · exact ⟨hbeside.installed.trans h.installed, hbeside.bus.trans h.bus,
      by rw [hbeside.board]; exact h.low, by rw [phase, hbeside.station]; exact h.idle⟩

theorem run_halted (flash : Flash) {board : Board} {e : SettingsError}
    (hrefused : board.refusal = some e) (moves : List Move) :
    ((boot flash board).run moves).Halted := by
  induction moves using List.reverseRecOn with
  | nil => exact boot_halted flash hrefused
  | append_singleton earlier m ih =>
    rw [run_snoc]
    exact ih.move m

/-! ### All runs -/

/-- **When a node drives the line.** The start puts the pin low twice. If the board takes settings,
the line is then released twice, at the level of its polarity, and from there on it is driven
exactly while a frame is sent or drains. If the board refuses them, nothing is ever sent, and a line
that is driven while the pin is low stays driven. -/
theorem run_isDriving (flash : Flash) (board : Board) (moves : List Move) :
    ((boot flash board).board.driveLevels = board.driveLevels ++ match board.refusal with
      | none => [false, false, DriverEnable.releasedLevel flash.identity.1.driveActiveLow,
        DriverEnable.releasedLevel flash.identity.1.driveActiveLow]
      | some _ => [false, false])
      ∧ match board.refusal with
        | none => ((boot flash board).run moves).isDriving = true
          ↔ ((boot flash board).run moves).phase = .sending
            ∨ ((boot flash board).run moves).phase = .draining
        | some _ => ((boot flash board).run moves).phase = .idle
          ∧ (((boot flash board).run moves).isDriving = true
            ↔ flash.identity.1.driveActiveLow = true) := by
  cases hrefusal : board.refusal with
  | none =>
    obtain ⟨-, -, -, hout⟩ := boot_taken flash hrefusal
    exact ⟨congrArg Outputs.driveLevels hout, run_isDriving_taken flash hrefusal moves⟩
  | some e =>
    obtain ⟨-, -, -, hout⟩ := boot_refused flash hrefusal
    have hhalted := run_halted flash hrefusal moves
    refine ⟨congrArg Outputs.driveLevels hout, hhalted.idle, ?_⟩
    rw [isDriving, DriverEnable.isAsserted, hhalted.low, run_identity, boot_identity]
    cases flash.identity.1.driveActiveLow <;> decide

/-- The identity of a keypad with a transceiver that drives while its pin is low. -/
def invertedFlash : Flash :=
  Flash.erased.program identityOffset [0x01, 0x1D, 0x00, 0x00, 0x80, 0x4B, 0x01]

/-- Such a keypad drives the line during its start, and for good if its settings are refused. Yet no
frame was ever loaded. -/
theorem invertedFlash_drives : invertedFlash.identity.1.driveActiveLow = true
    ∧ (boot invertedFlash {}).board.driveLevels
      = [DriverEnable.assertedLevel true, DriverEnable.assertedLevel true, true, true]
    ∧ (boot invertedFlash { refusal := some .baudrateTooLow }).phase = .idle
    ∧ (boot invertedFlash { refusal := some .baudrateTooLow }).isDriving = true := by
  decide +kernel

end Node

end MultidropBus
