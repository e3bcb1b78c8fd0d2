import FailureWire.Payload.Host
import FailureWire.Payload.Sharing
import FailureWire.Proofs.Value.Order
import FailureWire.Text.Pattern
import FailureWire.Value.Container

/-!
# Plain documents

A plain document describes a value that is built step by step from nothing but its parts: records whose fields are in
order, sets and maps without repetitions, patterns that are known by their own text, addresses that the host reads
back from theirs, arrays of the numbers that they store. Nothing stands for an object that was reached before, or for
a value of a graph. What JSON text cannot say is left out, too: dates that are no time, lists with gaps, all other
boxes, stacks.
-/

namespace FailureWire.Document

mutual
/-- A document that is built from its parts alone; `withBytes` if some of them may be bytes. -/
def IsPlain (host : Host) (withBytes : Bool) : Document → Prop
  | .undefined | .null | .bool _ | .number _ | .text _ | .big _ => True
  | .date time => ∃ ms : Int, ms.natAbs ≤ 8640000000000000 ∧ time = .ofInt ms
  | .pattern source flags => Pattern.isValid source.toList flags.toList = true ∧
      Pattern.sourceText source.toList = source.toList ∧ Pattern.sortFlags flags.toList = flags.toList
  | .bytes _ => withBytes = true
  | .numbers element items => ∀ n ∈ items, n.isFinite = true ∧ n ≠ .negativeZero ∧ element.store n = n
  | .record fields => Fields.ofList fields = fields ∧ PlainFields host withBytes fields
  | .list items => items.length ≤ 4294967295 ∧ PlainItems host withBytes items
  | .set members => members.length ≤ 4294967295 ∧ Container.setOf sameness members = members ∧
      PlainItems host withBytes members
  | .map entries => entries.length ≤ 4294967295 ∧ Container.mapOf sameness entries = entries ∧
      PlainEntries host withBytes entries
  | .error name message cause stack => IsPlain host withBytes name ∧ (∃ s, message = .text s) ∧
      PlainCause host withBytes cause ∧ stack = .undefined
  | .boxed (.address a) => host.Reads a
  | .sparse _ | .boxed _ | .again _ | .existing _ => False
termination_by structural d => d

def PlainFields (host : Host) (withBytes : Bool) : List (String × Document) → Prop
  | [] => True
  | (k, d) :: rest => isUnsafeKey k = false ∧ IsPlain host withBytes d ∧ PlainFields host withBytes rest
termination_by structural fs => fs

def PlainItems (host : Host) (withBytes : Bool) : List Document → Prop
  | [] => True
  | d :: rest => IsPlain host withBytes d ∧ PlainItems host withBytes rest
termination_by structural ds => ds

def PlainEntries (host : Host) (withBytes : Bool) : List (Document × Document) → Prop
  | [] => True
  | (k, d) :: rest => IsPlain host withBytes k ∧ IsPlain host withBytes d ∧ PlainEntries host withBytes rest
termination_by structural es => es

def PlainCause (host : Host) (withBytes : Bool) : Option Document → Prop
  | none => False
  | some d => IsPlain host withBytes d
termination_by structural d => d
end

end FailureWire.Document
