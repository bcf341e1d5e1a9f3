/-!
# Line settings

Speed and framing of the serial line. The bus always uses nine data bits without parity and with one
stop bit: the ninth bit marks a byte as an address. The other framings exist for the hardware.
-/

namespace MultidropBus

inductive DataBits
  | seven
  | eight
  | nine
deriving DecidableEq, Repr

inductive Parity
  | none
  | even
  | odd
deriving DecidableEq, Repr

inductive StopBits
  | one
  | two
deriving DecidableEq, Repr

/-- The speed, in bits per second, of a bus whose stations were not told otherwise. -/
def defaultBaudrate : UInt32 := 9600

structure LineSettings where
  baudrate : UInt32
  dataBits : DataBits
  parity : Parity
  stopBits : StopBits
deriving DecidableEq, Repr

/-- The framing of the bus at a given speed. -/
def LineSettings.multidrop (baudrate : UInt32) : LineSettings where
  baudrate := baudrate
  dataBits := .nine
  parity := .none
  stopBits := .one

end MultidropBus
