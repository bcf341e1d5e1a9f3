/-!
# Byte strings and fixed buffers

Everything on the wire, in a queue or in a stored record is a list of bytes. A buffer of fixed size
is filled from the front: what the source does not reach keeps its old content, which is how stale
bytes of an earlier, longer frame stay behind the current one.
-/

namespace MultidropBus

abbrev Bytes := List UInt8

/-- Copies `source` over the front of `buffer`. A source longer than the buffer is cut off, so the
size of the buffer never changes. -/
def overwrite (buffer source : Bytes) : Bytes :=
  source.take buffer.length ++ buffer.drop source.length

theorem overwrite_of_le (buffer source : Bytes) (h : source.length ≤ buffer.length) :
    overwrite buffer source = source ++ buffer.drop source.length := by
  simp [overwrite, List.take_of_length_le h]

end MultidropBus
