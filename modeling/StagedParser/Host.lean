import StagedParser.Conduct

/-!
A host supplies what grammars borrow from outside: functions, which convert values and test units,
and parsers of its own. Grammars refer to them by symbols that can be told apart; the host gives the
symbols meaning. One function may be used in both ways, and is then one function still.
-/

namespace StagedParser

/-- A host: the symbols it offers and what they mean. Functions may fail with a fault. -/
structure Host where
  /-- Symbols of functions. -/
  Function : Type
  /-- Symbols of parsers from outside. -/
  Foreign : Type
  decFunction : DecidableEq Function
  decForeign : DecidableEq Foreign
  /-- What a function makes of a value. -/
  apply : Function → Value → Except Fault Value
  /-- Whether a function lets a unit pass that it is to test. -/
  accepts : Function → CodeUnit → Except Fault Bool
  /-- What a parser from outside does when it stands in a grammar as the given entry. -/
  conduct : Foreign → Entry → Conduct

/-- A function that converts values. -/
abbrev Host.Transform (H : Host) : Type := H.Function

/-- A function that tests units. -/
abbrev Host.Test (H : Host) : Type := H.Function

instance (H : Host) : DecidableEq H.Function := H.decFunction

instance (H : Host) : DecidableEq H.Foreign := H.decForeign

/-- A conversion of a match's value: none at all, or a function of the host. -/
inductive Conversion (H : Host) where
  | identity
  | given (function : H.Transform)
deriving DecidableEq

/-- The value that a conversion makes of a value. -/
def Conversion.apply {H : Host} : Conversion H → Value → Except Fault Value
  | .identity, value => .ok value
  | .given function, value => H.apply function value

end StagedParser
