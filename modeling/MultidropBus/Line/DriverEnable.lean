/-!
# The driver-enable line

One pin switches the transceiver between listening and driving the shared pair of wires. Most
transceivers drive while the pin is high; boards with an inverting buffer drive while it is low. A
station drives only while it transmits, so the line is released as soon as its polarity is known.
-/

namespace MultidropBus

structure DriverEnable where
  activeLow : Bool
  /-- The level of the pin. -/
  high : Bool
deriving DecidableEq, Repr

namespace DriverEnable

/-- The pin level at which the transceiver drives the bus. -/
def assertedLevel (activeLow : Bool) : Bool := !activeLow

/-- The pin level at which the transceiver only listens. -/
def releasedLevel (activeLow : Bool) : Bool := activeLow

def assert (d : DriverEnable) : DriverEnable := { d with high := assertedLevel d.activeLow }

def release (d : DriverEnable) : DriverEnable := { d with high := releasedLevel d.activeLow }

/-- Takes over a pin at any level and releases the line at once. -/
def attach (high activeLow : Bool) : DriverEnable := release ⟨activeLow, high⟩

def isAsserted (d : DriverEnable) : Bool := d.high != d.activeLow

theorem isAsserted_assert (d : DriverEnable) : d.assert.isAsserted = true := by
  cases d with | mk activeLow high => cases activeLow <;> rfl

theorem isAsserted_release (d : DriverEnable) : d.release.isAsserted = false := by
  cases d with | mk activeLow high => cases activeLow <;> rfl

end DriverEnable

end MultidropBus
