import StagedParser.Name
import StagedParser.Number.Shortest

/-!
Generated code. Its statements declare and assign locals, act on the cursor and the entry hook,
branch, leave labelled blocks and return; they refer to parsers and functions by slots of a table
of constants.
-/

namespace StagedParser

namespace Code

/-- An operand: evaluating it changes nothing. -/
inductive Atom where
  | name (held : Name)
  | text (value : Text)
  | number (value : Number)
  | count (value : Nat)
  | flag (value : Bool)
  | null
  | absent
  /-- The constant in a slot. -/
  | slot (index : Nat)
  | cursor
  /-- The cursor's present position. -/
  | position
  /-- The value in the record that a local holds. -/
  | valueOf (record : Name)
deriving DecidableEq, Repr

inductive Method where
  | takeText
  | takeWhile
  | moveTo
  | other (name : Text)
deriving DecidableEq, Repr

/-- An expression that may act. -/
inductive Expr where
  | atom (value : Atom)
  /-- A new unset record, made by the constant in a slot. -/
  | newRecord (slot : Nat)
  /-- A call of the parser in a slot with the record that a local holds. -/
  | parse (slot : Nat) (record : Name)
  | onCursor (method : Method) (arguments : List Atom)
  /-- A call of the function in a slot. -/
  | call (slot : Nat) (argument : Atom)
  /-- Whether an operand is anything but null. -/
  | notNull (value : Atom)
deriving DecidableEq, Repr

inductive Stmt where
  | declare (names : List Name)
  /-- Declares a local with a value. -/
  | define (name : Name) (value : Atom)
  /-- Gives a local a new value. -/
  | assign (target : Name) (value : Expr)
  /-- Announces the parser in a slot. -/
  | enter (slot : Nat)
  /-- Moves the cursor to a position. -/
  | moveTo (target : Atom)
  /-- A block that can be left by its label. -/
  | block (label : Name) (body : List Stmt)
  | leave (label : Name)
  /-- Runs `yes` or `no` as a local says; an empty `no` is not written. -/
  | branch (condition : Name) (yes no : List Stmt)
  /-- Sets the caller's record. -/
  | report (start stop value : Atom)
  /-- Ends the run with an answer. -/
  | answer (value : Atom)
  /-- An assignment that no reader of the language accepts. -/
  | garbled (target : Name)
deriving Repr

mutual

/-- Whether a statement can be read. -/
def Stmt.isReadable : Stmt → Bool
  | .garbled _ => false
  | .block _ body => areReadable body
  | .branch _ yes no => areReadable yes && areReadable no
  | _ => true

def areReadable : List Stmt → Bool
  | [] => true
  | first :: rest => first.isReadable && areReadable rest

end

/-- The compiled form of a parser. Whoever splices it declares its locals, runs its body, and may
read its value only where its success is true. -/
structure Fragment where
  locals : List Name
  body : List Stmt
  success : Name
  value : Atom

/-- A fragment's declarations and statements, ready to be spliced. -/
def Fragment.spliced (fragment : Fragment) : List Stmt :=
  if fragment.locals.isEmpty then
    fragment.body
  else
    .declare fragment.locals :: fragment.body

end Code

end StagedParser
