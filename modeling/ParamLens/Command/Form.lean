import ParamLens.Number.Reading
import ParamLens.Text.Quoted

/-! Command lines. A form says which options and operands a command has; reading arguments with it
builds a request from the left to the right, until all are read or one of them ends the reading. -/

namespace ParamLens.Command

/-- What ends the reading of a command line before it is complete. -/
inductive Ending where
  | shown (text : String)
  | refused (text : String)
deriving DecidableEq, Repr

/-- An option: its names, and what it does to the request. -/
structure Flag (σ : Type) where
  names : List String
  takesValue : Bool := false
  apply : String → σ → Except Ending σ

/-- What the name of a flag is in messages. -/
def Flag.title {σ : Type} (flag : Flag σ) : String := Text.join "/" flag.names

/-- The arguments that are no options. -/
structure Operand (σ : Type) where
  name : String
  required : Bool
  /-- All that follows belongs to the operand, options as well. -/
  takesRest : Bool
  apply : List String → σ → Except Ending (σ × List String)

/-- The arguments that a command takes. -/
structure Form (σ : Type) where
  name : String
  usage : String
  flags : List (Flag σ)
  operand : Option (Operand σ) := none
  finish : σ → Except String σ := .ok

/-- A value in the same argument as its flag, after an equals sign or right behind the name. -/
structure Attached where
  value : List Char
  afterEquals : Bool

/-- How one argument is understood. -/
inductive Token (σ : Type) where
  | operand (written : String)
  | separator
  | flag (written name : String) (flag : Flag σ) (attached : Option Attached)
  | unknown (written : String)

namespace Token

variable {σ : Type}

/-- The argument as it is written. -/
def written : Token σ → String
  | .operand written => written
  | .separator => "--"
  | .flag written _ _ _ => written
  | .unknown written => written

/-- The argument is an option. -/
def isOption : Token σ → Bool
  | .flag _ _ _ _ => true
  | .unknown _ => true
  | _ => false

/-- The argument is an operand. -/
def isOperand : Token σ → Bool
  | .operand _ => true
  | _ => false

end Token

/-- The text before and after the first equals sign. -/
def splitEquals? (s : String) : Option (String × Attached) :=
  let before := s.toList.takeWhile (· != '=')
  if before.length < s.toList.length then
    some (String.ofList before, ⟨s.toList.drop (before.length + 1), true⟩)
  else none

/-- The argument is a negative number. -/
def isNegativeNumber (s : String) : Bool :=
  match s.toList with
  | '-' :: digits =>
    let whole := digits.takeWhile fun c => (Text.decimalValue? c).isSome
    match digits.drop whole.length with
    | [] => !whole.isEmpty
    | '.' :: fraction => !fraction.isEmpty && fraction.all fun c => (Text.decimalValue? c).isSome
    | _ => false
  | _ => false

/-- What a flag of a form says about its argument, in the words of messages. -/
def aboutArgument (title message : String) : String := "argument " ++ title ++ ": " ++ message

/-- The message about a value that a flag does not take. -/
def ignoredValue (title value : String) : String :=
  aboutArgument title ("ignored explicit argument " ++ Text.quoted value)

namespace Form

variable {σ : Type} (form : Form σ)

/-- The refusal of a command line with a message. -/
def refusal (message : String) : Ending :=
  .refused (form.usage ++ "\n" ++ form.name ++ ": error: " ++ message ++ "\n")

/-- The flags by their names, in the order of the form. -/
def named : List (String × Flag σ) :=
  form.flags.flatMap fun flag => flag.names.map fun name => (name, flag)

/-- The flags that an argument with two dashes may mean, by the start of their names. -/
def longCandidates (written : String) : List (Token σ) :=
  let (start, attached) := match splitEquals? written with
    | some (start, value) => (start, some value)
    | none => (written, none)
  (form.named.filter fun entry => Text.startsWith entry.1 start).map fun (name, flag) =>
    .flag written name flag attached

/-- The flags that an argument with one dash may mean: a short name with its value right behind,
or the start of a name. -/
def shortCandidates (written : String) : List (Token σ) :=
  form.named.filterMap fun (name, flag) =>
    if name == Text.take written 2 then
      some (.flag written name flag (some ⟨written.toList.drop 2, false⟩))
    else if Text.startsWith name written then some (.flag written name flag none)
    else none

/-- The names of the flags among candidates. -/
def candidateNames (found : List (Token σ)) : List String :=
  found.filterMap fun
    | .flag _ name _ _ => some name
    | _ => none

/-- How an argument that starts with a dash is understood when no flag has its name. -/
def guess (written : String) : Except Ending (Token σ) :=
  let found := if Text.startsWith written "--" then form.longCandidates written
    else form.shortCandidates written
  match found with
  | [token] => .ok token
  | [] =>
    if isNegativeNumber written || written.toList.contains ' ' then .ok (.operand written)
    else .ok (.unknown written)
  | several =>
    .error (form.refusal ("ambiguous option: " ++ written ++ " could match " ++
      Text.join ", " (candidateNames several)))

/-- How an argument is understood. -/
def token (written : String) : Except Ending (Token σ) :=
  if !Text.startsWith written "-" then .ok (.operand written)
  else
    match form.named.lookup written with
    | some flag => .ok (.flag written written flag none)
    | none =>
      if written == "-" then .ok (.operand written)
      else
        match (splitEquals? written).bind fun (name, value) =>
          (form.named.lookup name).map fun flag => Token.flag written name flag (some value) with
        | some token => .ok token
        | none => form.guess written

/-- How arguments are understood; after two dashes alone all are operands. -/
def tokens : List String → Except Ending (List (Token σ))
  | [] => .ok []
  | "--" :: rest => .ok (.separator :: rest.map .operand)
  | written :: rest => do
    let first ← form.token written
    return first :: (← tokens rest)

/-- What a flag with an attached value stands for. -/
structure Cluster (σ : Type) where
  /-- The flags to apply, with their values. -/
  flags : List (Flag σ × String)
  /-- A flag after them that takes its value, if any, from the next argument. -/
  last : Option (Flag σ) := none
  /-- The end of the argument, if it belongs to nothing. -/
  unknown : Option String := none

/-- What a flag with an attached value stands for: the value is its own if it takes one; otherwise
each of its characters is one more flag with a short name. -/
def cluster (name : String) (flag : Flag σ) (afterEquals : Bool) :
    List Char → Except Ending (Cluster σ)
  | [] =>
    if flag.takesValue then .ok { flags := [(flag, "")] }
    else .error (form.refusal (ignoredValue flag.title ""))
  | c :: rest =>
    let value := String.ofList (c :: rest)
    if flag.takesValue then .ok { flags := [(flag, value)] }
    else if Text.startsWith name "--" || afterEquals || c == '-' then
      .error (form.refusal (ignoredValue flag.title value))
    else
      let next := String.ofList ['-', c]
      match form.named.lookup next, rest with
      | none, _ => .ok { flags := [(flag, "")], unknown := some ("-" ++ value) }
      | some other, [] => .ok { flags := [(flag, "")], last := some other }
      | some other, '=' :: rest => do
        let found ← cluster next other true rest
        return { found with flags := (flag, "") :: found.flags }
      | some other, rest => do
        let found ← cluster next other false rest
        return { found with flags := (flag, "") :: found.flags }

/-- Applies flags in order. -/
def applyAll (flags : List (Flag σ × String)) (s : σ) : Except Ending σ :=
  flags.foldlM (fun s (flag, value) => flag.apply value s) s

/-- Applies a flag that has no attached value; gives what is left of the arguments. -/
def applyFlag (before : List (Flag σ × String)) (flag : Flag σ) (rest : List (Token σ)) (s : σ) :
    Except Ending (σ × List (Token σ)) :=
  if flag.takesValue then
    match rest with
    | .operand value :: rest => do return (← applyAll (before ++ [(flag, value)]) s, rest)
    | _ => .error (form.refusal (aboutArgument flag.title "expected one argument"))
  else do return (← applyAll (before ++ [(flag, "")]) s, rest)

/-- The arguments that an operand takes from the front, and the rest. -/
def takeOperand (operand : Operand σ) (tokens : List (Token σ)) :
    Option (List String × List (Token σ)) :=
  let start := match tokens with
    | .separator :: rest => rest
    | tokens => tokens
  if !(start.head?.any Token.isOperand) then none
  else if operand.takesRest then some (tokens.map Token.written, [])
  else
    let taken := tokens.takeWhile fun token => !token.isOption
    some ((taken.filter Token.isOperand).map Token.written, tokens.drop taken.length)

/-- What reading arguments gives: the request, the arguments that belong to nothing, and whether
the operand was given. -/
structure Progress (σ : Type) where
  request : σ
  extra : List String := []
  nested : List String := []
  hasOperand : Bool := false

/-- Reads arguments from the left. Each step takes at least one of them. -/
def readFrom (fuel : Nat) (tokens : List (Token σ)) (p : Progress σ) :
    Except Ending (Progress σ) :=
  match fuel, tokens with
  | fuel + 1, .unknown written :: rest =>
    readFrom fuel rest { p with extra := p.extra ++ [written] }
  | fuel + 1, .flag _ _ flag none :: rest => do
    let (request, rest) ← form.applyFlag [] flag rest p.request
    readFrom fuel rest { p with request }
  | fuel + 1, .flag _ name flag (some attached) :: rest => do
    let found ← form.cluster name flag attached.afterEquals attached.value
    let p := { p with extra := p.extra ++ found.unknown.toList }
    match found.last with
    | none => readFrom fuel rest { p with request := ← applyAll found.flags p.request }
    | some last =>
      let (request, rest) ← form.applyFlag found.flags last rest p.request
      readFrom fuel rest { p with request }
  | fuel + 1, token :: rest => do
    let operand := if p.hasOperand then none else form.operand
    match operand.bind fun operand => (takeOperand operand (token :: rest)).map ((operand, ·)) with
    | some (operand, taken, rest) =>
      let (request, nested) ← operand.apply taken p.request
      readFrom fuel rest { p with request, nested, hasOperand := true }
    | none =>
      let skipped := (token :: rest).takeWhile fun token => !token.isOption
      readFrom fuel ((token :: rest).drop skipped.length)
        { p with extra := p.extra ++ skipped.map Token.written }
  | _, _ => .ok p

/-- The request that arguments build from a first one, and the arguments that belong to nothing. -/
def read (arguments : List String) (start : σ) : Except Ending (σ × List String) := do
  let tokens ← form.tokens arguments
  let p ← form.readFrom (tokens.length + 1) tokens { request := start }
  match form.operand.filter fun operand => operand.required && !p.hasOperand with
  | some operand =>
    .error (form.refusal ("the following arguments are required: " ++ operand.name))
  | none =>
    match form.finish p.request with
    | .ok request => return (request, p.extra ++ p.nested)
    | .error message => .error (form.refusal message)

end Form

end ParamLens.Command
