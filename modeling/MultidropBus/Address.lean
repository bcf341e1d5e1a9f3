/-!
# The address plan

One byte addresses every station: `0` is the bus master, `1` to `29` are single nodes, `50` to `100`
are groups that nodes join, and `255` reaches everyone. All other values are reserved. As a
*source*, `255` marks frames that a gateway bridges onto the bus from elsewhere, since those have no
sender among the stations.
-/

namespace MultidropBus

abbrev Address := UInt8

namespace Address

def master : Address := 0
def broadcast : Address := 255
def bridgeSource : Address := 255
def firstNode : Address := 1
def lastNode : Address := 29
def firstGroup : Address := 50
def lastGroup : Address := 100

/-- The group to which keypads report. -/
def pinpadEvents : Address := 50

def isNode (a : Address) : Bool := firstNode ≤ a && a ≤ lastNode

def isGroup (a : Address) : Bool := firstGroup ≤ a && a ≤ lastGroup

end Address

inductive AddressKind
  | master
  | node (a : Address)
  | group (a : Address)
  | broadcast
  | reserved (a : Address)
deriving DecidableEq, Repr

def Address.kind (a : Address) : AddressKind :=
  if a = master then .master
  else if a = broadcast then .broadcast
  else if a.isNode then .node a
  else if a.isGroup then .group a
  else .reserved a

/-- A station may call itself by the master's address or by a node address; groups, broadcast and
reserved values never name one station. -/
def Address.isAssignable (a : Address) : Bool :=
  match a.kind with
  | .master | .node _ => true
  | _ => false

theorem Address.isAssignable_iff (a : Address) : a.isAssignable ↔ a ≤ lastNode := by
  have hkey : ∀ n : Fin 256, Address.isAssignable ⟨⟨n⟩⟩ ↔ (⟨⟨n⟩⟩ : UInt8) ≤ lastNode := by
    decide +kernel
  exact hkey a.toFin

end MultidropBus
