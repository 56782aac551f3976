import StagedParser.Number

/-!
Buffers: the texts that cursors read. A buffer has fewer than `2 ^ 53` units, so that every offset,
line and column in it is a number exactly.
-/

namespace StagedParser

structure Buffer where
  units : Array CodeUnit
  bounded : units.size < Number.exactLimit
deriving DecidableEq

namespace Buffer

/-- The buffer of a text that is short enough. -/
def ofText (text : Text) (bounded : text.length < Number.exactLimit) : Buffer :=
  ⟨text.toArray, bounded⟩

/-- The buffer of a text, if the text is short enough. -/
def ofText? (text : Text) : Option Buffer :=
  if h : text.length < Number.exactLimit then some (ofText text h) else none

def text (buffer : Buffer) : Text :=
  buffer.units.toList

def size (buffer : Buffer) : Nat :=
  buffer.units.size

/-- The units from index `start` up to index `stop`, as far as they are there. -/
def slice (buffer : Buffer) (start stop : Nat) : Text :=
  (buffer.units.extract start stop).toList

end Buffer

end StagedParser
