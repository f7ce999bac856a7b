/-! The kinds of syntax nodes of Python source and the roles that a node can have in its parent. -/

namespace ParamLens.Syntax

/-- The kind of a syntax node. Kinds that no rule asks about keep their name. -/
inductive Kind where
  | module | classDefinition | functionDefinition | asyncFunctionDefinition | decoratedDefinition
  | decorator | block | suite | error | expressionStatement | assignment | call | attribute
  | identifier | argumentList | keywordArgument | importStatement | importFromStatement
  | aliasedImport | dottedName | relativeImport | wildcardImport | importKeyword | classKeyword
  | operator | integer | float | string | trueLiteral | falseLiteral | noneLiteral | list
  | dictionary | tuple | unaryOperator | nameToken | trailer | openParen | closeParen
  | openBracket | closeBracket | comma
  | other (name : String)
deriving DecidableEq, Repr, Inhabited

namespace Kind

/-- The kinds with a constructor of their own, each with its name in the grammar. -/
def known : List (String × Kind) :=
  [("module", .module), ("class_definition", .classDefinition),
   ("function_definition", .functionDefinition),
   ("async_function_definition", .asyncFunctionDefinition),
   ("decorated_definition", .decoratedDefinition), ("decorator", .decorator), ("block", .block),
   ("suite", .suite), ("ERROR", .error), ("expression_statement", .expressionStatement),
   ("assignment", .assignment), ("call", .call), ("attribute", .attribute),
   ("identifier", .identifier), ("argument_list", .argumentList),
   ("keyword_argument", .keywordArgument), ("import_statement", .importStatement),
   ("import_from_statement", .importFromStatement), ("aliased_import", .aliasedImport),
   ("dotted_name", .dottedName), ("relative_import", .relativeImport),
   ("wildcard_import", .wildcardImport), ("import", .importKeyword), ("class", .classKeyword),
   ("operator", .operator), ("integer", .integer), ("float", .float), ("string", .string),
   ("true", .trueLiteral), ("false", .falseLiteral), ("none", .noneLiteral), ("list", .list),
   ("dictionary", .dictionary), ("tuple", .tuple), ("unary_operator", .unaryOperator),
   ("name", .nameToken), ("trailer", .trailer), ("(", .openParen), (")", .closeParen),
   ("[", .openBracket), ("]", .closeBracket), (",", .comma)]

/-- The kind with the given name in the grammar. -/
def ofName (name : String) : Kind := (known.lookup name).getD (.other name)

/-- The name of a kind in the grammar. -/
def name : Kind → String
  | .module => "module"
  | .classDefinition => "class_definition"
  | .functionDefinition => "function_definition"
  | .asyncFunctionDefinition => "async_function_definition"
  | .decoratedDefinition => "decorated_definition"
  | .decorator => "decorator"
  | .block => "block"
  | .suite => "suite"
  | .error => "ERROR"
  | .expressionStatement => "expression_statement"
  | .assignment => "assignment"
  | .call => "call"
  | .attribute => "attribute"
  | .identifier => "identifier"
  | .argumentList => "argument_list"
  | .keywordArgument => "keyword_argument"
  | .importStatement => "import_statement"
  | .importFromStatement => "import_from_statement"
  | .aliasedImport => "aliased_import"
  | .dottedName => "dotted_name"
  | .relativeImport => "relative_import"
  | .wildcardImport => "wildcard_import"
  | .importKeyword => "import"
  | .classKeyword => "class"
  | .operator => "operator"
  | .integer => "integer"
  | .float => "float"
  | .string => "string"
  | .trueLiteral => "true"
  | .falseLiteral => "false"
  | .noneLiteral => "none"
  | .list => "list"
  | .dictionary => "dictionary"
  | .tuple => "tuple"
  | .unaryOperator => "unary_operator"
  | .nameToken => "name"
  | .trailer => "trailer"
  | .openParen => "("
  | .closeParen => ")"
  | .openBracket => "["
  | .closeBracket => "]"
  | .comma => ","
  | .other name => name

end Kind

/-- The role of a node in its parent. Roles that no rule asks about keep their name. -/
inductive Role where
  | left | right | function | arguments | object | attribute | name | alias | body | superclasses
  | moduleName | value | definition
  | other (name : String)
deriving DecidableEq, Repr, Inhabited

namespace Role

/-- The roles with a constructor of their own, each with its name in the grammar. -/
def known : List (String × Role) :=
  [("left", .left), ("right", .right), ("function", .function), ("arguments", .arguments),
   ("object", .object), ("attribute", .attribute), ("name", .name), ("alias", .alias),
   ("body", .body), ("superclasses", .superclasses), ("module_name", .moduleName),
   ("value", .value), ("definition", .definition)]

/-- The role with the given name in the grammar. -/
def ofName (name : String) : Role := (known.lookup name).getD (.other name)

end Role

end ParamLens.Syntax
