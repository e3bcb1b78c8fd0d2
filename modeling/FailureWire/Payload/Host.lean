import FailureWire.Value.Boxed

/-!
# What the host decides

Payload text is turned back into values with constructors of the host. What they do is taken from the language, but
for two questions that only the host can answer: which texts are addresses (`new URL(text)`), and whether there is
memory for an array (`CreateByteDataBlock`). Every reader of payload text takes the answers as a parameter.
-/

namespace FailureWire

/-- The answers of a host. -/
structure Host where
  /-- The address that a text spells, if it spells one. -/
  address? : List Char → Option Address
  /-- Whether there is memory for an array of this many bytes. -/
  hasRoom : Nat → Bool

namespace Host

/-- A host without addresses and with 16 MiB for each array. -/
def plain : Host where
  address? _ := none
  hasRoom bytes := bytes ≤ Nat.pow 2 24

/-- The host reads an address back from its text. -/
def Reads (host : Host) (a : Address) : Prop := host.address? a.href.toList = some a

end Host
end FailureWire
