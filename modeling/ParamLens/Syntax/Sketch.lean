import ParamLens.Syntax.Node

/-! Writing down a text together with its syntax tree. A sketch holds the tokens of the text with
what stands between them, and how they make up phrases; the places of the nodes follow from the
text. -/

namespace ParamLens.Syntax

/-- What stands before a token: blanks, or a line end with the blanks of the next line. -/
inductive Gap where
  | blank (count : Nat)
  | line (indent : Nat)

/-- The text of a gap. -/
def Gap.text : Gap → String
  | blank count => String.ofList (List.replicate count ' ')
  | line indent => String.ofList ('\n' :: List.replicate indent ' ')

/-- A place in a text, and its offset in bytes. -/
structure Place where
  byte : Nat := 0
  point : Point := ⟨0, 0⟩

/-- The place after a gap. -/
def Place.afterGap (p : Place) : Gap → Place
  | .blank count => ⟨p.byte + count, ⟨p.point.row, p.point.column + count⟩⟩
  | .line indent => ⟨p.byte + 1 + indent, ⟨p.point.row + 1, indent⟩⟩

/-- The place after a text that stands on one line. -/
def Place.afterText (p : Place) (s : String) : Place :=
  ⟨p.byte + s.utf8ByteSize, ⟨p.point.row, p.point.column + s.utf8ByteSize⟩⟩

/-- A text with its syntax tree: a token, which stands on one line, with the gap before it, or a
phrase with its parts. -/
inductive Sketch where
  | token (kind : Kind) (role : Option Role) (gap : Gap) (text : String)
  | phrase (kind : Kind) (role : Option Role) (parts : List Sketch)

namespace Sketch

mutual

/-- The text with the gap before it. -/
def written : Sketch → String
  | token _ _ gap text => gap.text ++ text
  | phrase _ _ parts => writtenAll parts

/-- The text of several sketches. -/
def writtenAll : List Sketch → String
  | [] => ""
  | first :: rest => first.written ++ writtenAll rest

end

/-- The gap before the text. -/
def gap : Sketch → Gap
  | token _ _ gap _ => gap
  | phrase _ _ [] => .blank 0
  | phrase _ _ (first :: _) => first.gap

/-- The text without the gap before it. -/
def text : Sketch → String
  | token _ _ _ text => text
  | phrase _ _ [] => ""
  | phrase _ _ (first :: rest) => first.text ++ writtenAll rest

mutual

/-- The place after the text, if it begins at a place. -/
def after (p : Place) : Sketch → Place
  | token _ _ gap text => (p.afterGap gap).afterText text
  | phrase _ _ parts => afterAll p parts

/-- The place after several sketches. -/
def afterAll (p : Place) : List Sketch → Place
  | [] => p
  | first :: rest => afterAll (first.after p) rest

end

/-- The span of a text that begins and ends at the places. -/
def span (start stop : Place) : Span := ⟨start.byte, stop.byte, start.point, stop.point⟩

mutual

/-- The node of a sketch whose text begins at a place. -/
def nodeFrom (p : Place) : Sketch → Node
  | token kind role gap text =>
    ⟨kind, span (p.afterGap gap) ((p.afterGap gap).afterText text), text, role, []⟩
  | phrase kind role parts =>
    ⟨kind, span (p.afterGap (phrase kind role parts).gap) (afterAll p parts),
      (phrase kind role parts).text, role, nodesFrom p parts⟩

/-- The nodes of sketches whose texts follow one another from a place. -/
def nodesFrom (p : Place) : List Sketch → List Node
  | [] => []
  | first :: rest => nodeFrom p first :: nodesFrom (first.after p) rest

end

/-- The syntax tree of the text. -/
def node (s : Sketch) : Node := s.nodeFrom {}

/-- The node of the tree at the end of a path of child indexes. -/
def nodeAt (s : Sketch) (path : List Nat) : Node := (s.node.descend? path).getD s.node

/-- The place at the end of a path of child indexes. -/
def placeAt (s : Sketch) (path : List Nat) : Node.Located := ⟨s.nodeAt path, s.node.ancestors path⟩

/-! ### Expressions -/

/-- The sketch in a role. -/
def inRole (role : Role) : Sketch → Sketch
  | token kind _ gap text => token kind (some role) gap text
  | phrase kind _ parts => phrase kind (some role) parts

/-- The sketch behind a gap. -/
def behind (gap : Gap) : Sketch → Sketch
  | token kind role _ text => token kind role gap text
  | phrase kind role [] => phrase kind role []
  | phrase kind role (first :: rest) => phrase kind role (first.behind gap :: rest)

/-- A keyword or a punctuation mark. -/
def mark (text : String) : Sketch := token (.ofName text) none (.blank 0) text

/-- A plain name. -/
def name (text : String) : Sketch := token .identifier none (.blank 0) text

/-- A whole number. -/
def number (text : String) : Sketch := token .integer none (.blank 0) text

/-- A text in double quotes. -/
def quoted (text : String) : Sketch :=
  phrase .string none
    [token (.other "string_start") none (.blank 0) "\"",
     token (.other "string_content") none (.blank 0) text,
     token (.other "string_end") none (.blank 0) "\""]

/-- The member of a plain name. -/
def member (object last : String) : Sketch :=
  phrase .attribute none
    [(name object).inRole .object, mark ".", (name last).inRole .attribute]

/-- The sketches with a mark between them. -/
def separated (between : Sketch) (gap : Gap) : List Sketch → List Sketch
  | [] => []
  | first :: rest => first :: rest.flatMap fun item => [between, item.behind gap]

/-- A dotted name. -/
def dotted (parts : List String) : Sketch :=
  phrase .dottedName none (separated (mark ".") (.blank 0) (parts.map name))

/-- A list in parentheses. -/
def listed (kind : Kind) (items : List Sketch) : Sketch :=
  phrase kind none (mark "(" :: (separated (mark ",") (.blank 1) items ++ [mark ")"]))

/-- A number below zero. -/
def minus (digits : String) : Sketch :=
  phrase .unaryOperator none [(mark "-").inRole (.other "operator"),
    (number digits).inRole (.other "argument")]

/-- A call. -/
def call (function : Sketch) (arguments : List Sketch) : Sketch :=
  phrase .call none
    [function.inRole .function, (listed .argumentList arguments).inRole .arguments]

/-- An argument with its keyword. -/
def keyword (own : String) (value : Sketch) : Sketch :=
  phrase .keywordArgument none [(name own).inRole .name, mark "=", value.inRole .value]

/-! ### Statements -/

/-- A statement, given how far it is indented. -/
abbrev Statement := Nat → Sketch

/-- The statement that does nothing. -/
def pass : Statement := fun _ => phrase (.other "pass_statement") none [mark "pass"]

/-- The body of a definition. -/
def block (indent : Nat) (body : List Statement) : Sketch :=
  let items := if body.isEmpty then [pass] else body
  phrase .block (some .body) (items.map fun item => (item indent).behind (.line indent))

/-- An assignment. -/
def assign (target value : Sketch) : Statement := fun _ =>
  phrase .expressionStatement none
    [phrase .assignment none
      [target.inRole .left, (mark "=").behind (.blank 1), (value.inRole .right).behind (.blank 1)]]

/-- An expression as a statement. -/
def evaluates (value : Sketch) : Statement := fun _ => phrase .expressionStatement none [value]

/-- A class. -/
def classed (own : String) (bases : List Sketch) (body : List Statement) : Statement :=
  fun indent => phrase .classDefinition none
    ([mark "class", ((name own).inRole .name).behind (.blank 1)] ++
      (if bases.isEmpty then [] else [(listed .argumentList bases).inRole .superclasses]) ++
      [mark ":", block (indent + 4) body])

/-- A function with the given names of parameters. -/
def function (own : String) (parameters : List String) (body : List Statement) : Statement :=
  fun indent => phrase .functionDefinition none
    [mark "def", ((name own).inRole .name).behind (.blank 1),
     (listed (.other "parameters") (parameters.map name)).inRole (.other "parameters"), mark ":",
     block (indent + 4) body]

/-- A definition with a decorator. -/
def decorated (decorator : Sketch) (definition : Statement) : Statement := fun indent =>
  phrase .decoratedDefinition none
    [phrase .decorator none [mark "@", decorator],
     ((definition indent).inRole .definition).behind (.line indent)]

/-- The import of a module. -/
def importsModule (module : List String) : Statement := fun _ =>
  phrase .importStatement none [mark "import", ((dotted module).inRole .name).behind (.blank 1)]

/-- The import of a module by another name. -/
def importsAs (module : List String) (own : String) : Statement := fun _ =>
  phrase .importStatement none
    [mark "import",
     phrase .aliasedImport (some .name)
      [((dotted module).inRole .name).behind (.blank 1), (mark "as").behind (.blank 1),
       ((name own).inRole .alias).behind (.blank 1)]]

/-- The import of names from a module. -/
def takes (module : Sketch) (items : List Sketch) : Statement := fun _ =>
  phrase .importFromStatement none
    ([mark "from", (module.inRole .moduleName).behind (.blank 1),
        (mark "import").behind (.blank 1)] ++
      separated (mark ",") (.blank 1) (items.map (behind (.blank 1))))

/-- A name that is taken from a module. -/
def taken (own : String) : Sketch := (dotted [own]).inRole .name

/-- A name that is taken from a module to go by another name. -/
def renamed (own other : String) : Sketch :=
  phrase .aliasedImport (some .name)
    [taken own, (mark "as").behind (.blank 1), ((name other).inRole .alias).behind (.blank 1)]

/-- The import of one name from a module that is written in full. -/
def takesName (module : List String) (own : String) : Statement :=
  takes (dotted module) [taken own]

/-- A module that is written with dots before its name. -/
def relative (dots : String) (module : List String) : Sketch :=
  phrase .relativeImport none
    (phrase (.other "import_prefix") none [mark dots] ::
      if module.isEmpty then [] else [dotted module])

/-- The import of one name from a module that is written with dots before its name. -/
def takesNear (dots : String) (module : List String) (own : String) : Statement :=
  takes (relative dots module) [taken own]

/-- The import of all names from a module that is written with dots before its name. -/
def takesEvery (dots : String) (module : List String) : Statement :=
  takes (relative dots module) [phrase .wildcardImport none [mark "*"]]

/-- The root of all classes with parameters, as a member of its module. -/
def rootBase : Sketch := member "param" "Parameterized"

/-- The declaration of a parameter by a type of the module `param`. -/
def declares (own type : String) (arguments : List Sketch) : Statement :=
  assign (name own) (call (member "param" type) arguments)

/-- The sketches on lines of their own. -/
def lined : List Sketch → List Sketch
  | [] => []
  | first :: rest => first :: rest.map (behind (.line 0))

/-- A whole file. -/
def file (statements : List Statement) : Sketch :=
  phrase .module none (lined (statements.map (· 0)))

end Sketch

end ParamLens.Syntax
