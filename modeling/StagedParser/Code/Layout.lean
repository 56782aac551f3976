import StagedParser.Code

/-!
The text of generated code: one statement a line, blocks indented by four columns.
-/

namespace StagedParser

namespace Code

/-- Names of the parameters of generated code. -/
def contextName : Text := Text.ofString "context"

/-- The parameter that holds the caller's record. -/
def resultName : Text := Text.ofString "result"

def constantsName : Text := Text.ofString "constants"

/-- A slot of the table of constants. -/
def slotText (index : Nat) : Text :=
  constantsName ++ Text.ofString "[" ++ Text.ofNat index ++ Text.ofString "]"

def cursorText : Text :=
  contextName ++ Text.ofString ".scanner.cursor"

/-- The texts with commas between them. -/
def commaSeparated (texts : List Text) : Text :=
  Text.joinWith (Text.ofString ", ") texts

def callText (function : Text) (arguments : List Text) : Text :=
  function ++ Text.ofString "(" ++ commaSeparated arguments ++ Text.ofString ")"

def Atom.layout : Atom → Text
  | .name held => held.text
  | .text value => value.literal
  | .number value => value.text
  | .count value => (Number.ofNat value).text
  | .flag value => Text.ofString (if value then "true" else "false")
  | .null => Text.ofString "null"
  | .absent => Text.ofString "void 0"
  | .slot index => slotText index
  | .cursor => cursorText
  | .position => cursorText ++ Text.ofString ".position"
  | .valueOf record => record.text ++ Text.ofString ".value"

def Method.layout : Method → Text
  | .takeText => Text.ofString "readText"
  | .takeWhile => Text.ofString "readWhile"
  | .moveTo => Text.ofString "resetPosition"
  | .other name => name

def cursorCall (method : Method) (arguments : List Atom) : Text :=
  callText (cursorText ++ Text.ofString "." ++ method.layout) (arguments.map Atom.layout)

def Expr.layout : Expr → Text
  | .atom value => value.layout
  | .newRecord slot => Text.ofString "new " ++ callText (slotText slot) []
  | .parse slot record =>
    callText (slotText slot ++ Text.ofString ".parse") [contextName, record.text]
  | .onCursor method arguments => cursorCall method arguments
  | .call slot argument => callText (slotText slot) [argument.layout]
  | .notNull value => value.layout ++ Text.ofString " !== null"

def assignment (target value : Text) : Text :=
  target ++ Text.ofString " = " ++ value ++ Text.ofString ";"

/-- The indentation of statements inside `depth` blocks. -/
def indent (depth : Nat) : Text :=
  List.replicate (4 * depth) 32

/-- The line break between statements. -/
def newLine : Text := [Text.lineFeed]

mutual

/-- The text of a statement inside `depth` blocks, without the indentation of its first line. -/
def Stmt.layout (depth : Nat) : Stmt → Text
  | .declare names =>
    Text.ofString "let " ++ commaSeparated (names.map Name.text) ++ Text.ofString ";"
  | .define name value => Text.ofString "const " ++ assignment name.text value.layout
  | .assign target value => assignment target.text value.layout
  | .enter slot =>
    callText (contextName ++ Text.ofString ".enterParser") [slotText slot] ++ Text.ofString ";"
  | .moveTo target => cursorCall .moveTo [target] ++ Text.ofString ";"
  | .block label body =>
    label.text ++ Text.ofString ": \x7b" ++ newLine ++ layoutBlock depth body
  | .leave label => Text.ofString "break " ++ label.text ++ Text.ofString ";"
  | .branch condition yes no =>
    let positive := Text.ofString "if (" ++ condition.text ++ Text.ofString ") \x7b" ++ newLine ++
      layoutBlock depth yes
    match no with
    | [] => positive
    | _ :: _ =>
      positive ++ newLine ++ indent depth ++ Text.ofString "else \x7b" ++ newLine ++
        layoutBlock depth no
  | .report start stop value =>
    callText (resultName ++ Text.ofString ".set") [start.layout, stop.layout, value.layout] ++
      Text.ofString ";"
  | .answer value => Text.ofString "return " ++ value.layout ++ Text.ofString ";"
  | .garbled target => assignment target.text (Text.ofString "not valid")

/-- The inside of a block that stands inside `depth` blocks, and its closing brace. -/
def layoutBlock (depth : Nat) : List Stmt → Text
  | [] => indent depth ++ Text.ofString "\x7d"
  | first :: rest =>
    indent (depth + 1) ++ first.layout (depth + 1) ++ newLine ++ layoutBlock depth rest

end

/-- The text of code: its statements, one after another. -/
def layout (code : List Stmt) : Text :=
  Text.joinWith newLine (code.map (Stmt.layout 0))

end Code

end StagedParser
