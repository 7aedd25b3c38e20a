import SyntaxQuery.Source.Snapshot

/-!
# What is done by other software

Sources are parsed, cache keys are digested and messages are filtered by software that is used as it
is. What it gives back is gathered here, and what the program does with it is told for any such
record.
-/

namespace SyntaxQuery

structure Engine (κ : Type) where
  /-- The tree of a source in a language. -/
  parser : Parser
  /-- What tells cache keys apart. -/
  digest : List UInt8 → κ
  /-- Why a text is no log filter, if it is none. -/
  filterFault? : String → Option String

end SyntaxQuery
