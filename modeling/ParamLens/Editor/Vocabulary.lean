/-! The vocabulary of the editor: what can be named after a parameter namespace, after one of its
parameters and after a reactive expression, and the texts that describe it. -/

namespace ParamLens.Editor

/-- A name with the text that describes it. -/
structure Term where
  name : String
  text : String
deriving DecidableEq, Repr

/-- A member of parameter namespaces, as it is described. -/
structure Guide where
  signature : String
  description : String
  sample : String
  returns : String
  note : String
deriving DecidableEq, Repr

/-- How the members of parameter namespaces are described. -/
def namespaceGuides : List (String × Guide) :=
  [("values",
    { signature := "values()"
      description :=
        "Returns a dictionary mapping parameter names to their current values for all " ++
          "parameters of this Parameterized object."
      sample :=
        "obj.param.values()\n# Output: \x7b'x': 5, 'y': 'hello', 'z': True\x7d"
      returns := "Dict[str, Any] (actual parameter values)"
      note :=
        "Returns the actual current parameter values, not parameter names or objects" }),
   ("objects",
    { signature := "objects()"
      description :=
        "Returns a dictionary mapping parameter names to their Parameter objects for all " ++
          "parameters of this Parameterized object."
      sample :=
        "obj.param.objects()\n# Output: \x7b'x': Integer(default=5), 'y': " ++
          "String(default='hello'), 'z': Boolean(default=True)\x7d"
      returns := "Dict[str, Parameter] (parameter objects with metadata)"
      note :=
        "Returns the Parameter objects themselves (with metadata), not the current parameter " ++
          "values" }),
   ("update",
    { signature := "update(**params)"
      description :=
        "Update multiple parameters at once by passing parameter names as keyword arguments."
      sample :=
        "obj.param.update(x=10, y='new_value')\n# Updates multiple parameters simultaneously"
      returns := "None"
      note :=
        "Efficiently updates multiple parameters with validation and triggers watchers" })]

/-- A member of reactive expressions, as it is described. -/
structure ReactiveGuide where
  signature : String
  description : String
  sample : String
deriving DecidableEq, Repr

/-- How the members of reactive expressions are described. -/
def reactiveGuides : List (String × ReactiveGuide) :=
  [("and_",
    { signature := "and_(other)"
      description :=
        "Returns a reactive expression that applies the `and` operator between this expression " ++
          "and another value."
      sample := "param_rx.and_(other_value)" }),
   ("bool",
    { signature := "bool()"
      description :=
        "Returns a reactive expression that applies the `bool()` function to this expression's " ++
          "value."
      sample := "param_rx.bool()" }),
   ("in_",
    { signature := "in_(container)"
      description :=
        "Returns a reactive expression that checks if this expression's value is in the given " ++
          "container."
      sample := "param_rx.in_([1, 2, 3])" }),
   ("is_",
    { signature := "is_(other)"
      description :=
        "Returns a reactive expression that checks object identity between this expression and " ++
          "another value using the `is` operator."
      sample := "param_rx.is_(None)" }),
   ("is_not",
    { signature := "is_not(other)"
      description :=
        "Returns a reactive expression that checks absence of object identity using the `is " ++
          "not` operator."
      sample := "param_rx.is_not(None)" }),
   ("len",
    { signature := "len()"
      description :=
        "Returns a reactive expression that applies the `len()` function to this expression's " ++
          "value."
      sample := "param_rx.len()" }),
   ("map",
    { signature := "map(func, *args, **kwargs)"
      description :=
        "Returns a reactive expression that maps a function over the collection items in this " ++
          "expression's value."
      sample := "param_rx.map(lambda x: x * 2)" }),
   ("or_",
    { signature := "or_(other)"
      description :=
        "Returns a reactive expression that applies the `or` operator between this expression " ++
          "and another value."
      sample := "param_rx.or_(default_value)" }),
   ("pipe",
    { signature := "pipe(func, *args, **kwargs)"
      description :=
        "Returns a reactive expression that pipes this expression's value into the given " ++
          "function."
      sample := "param_rx.pipe(str.upper)" }),
   ("updating",
    { signature := "updating()"
      description :=
        "Returns a boolean reactive expression indicating whether this expression is currently " ++
          "updating."
      sample := "param_rx.updating()" }),
   ("when",
    { signature := "when(*conditions)"
      description :=
        "Returns a reactive expression that only updates when the specified conditions are met."
      sample := "param_rx.when(condition_rx)" }),
   ("where",
    { signature := "where(condition, other)"
      description :=
        "Returns a reactive expression implementing a ternary conditional (like numpy.where)."
      sample := "param_rx.where(condition, true_value)" }),
   ("watch",
    { signature := "watch(callback, onlychanged=True)"
      description :=
        "Triggers a side-effect callback when this reactive expression outputs a new event."
      sample := "param_rx.watch(lambda x: print(f'Value changed to \x7bx\x7d'))" }),
   ("value",
    { signature := "value"
      description :=
        "Property to get or set the current value of this reactive expression."
      sample := "current_val = param_rx.value" })]

/-- The arguments of parameter declarations. -/
def declarationArguments : List Term :=
  [⟨"default", "Default value for the parameter"⟩,
   ⟨"doc", "Documentation string describing the parameter"⟩,
   ⟨"label", "Human-readable name for the parameter"⟩,
   ⟨"precedence", "Numeric precedence for parameter ordering"⟩,
   ⟨"instantiate", "Whether to instantiate the default value per instance"⟩,
   ⟨"constant", "Whether the parameter value cannot be changed after construction"⟩,
   ⟨"readonly", "Whether the parameter value can be modified after construction"⟩,
   ⟨"allow_None", "Whether None is allowed as a valid value"⟩,
   ⟨"per_instance", "Whether the parameter is stored per instance"⟩,
   ⟨"bounds", "Tuple of (min, max) values for numeric parameters"⟩,
   ⟨"inclusive_bounds", "Tuple of (left_inclusive, right_inclusive) booleans"⟩,
   ⟨"softbounds", "Tuple of (soft_min, soft_max) for suggested ranges"⟩]

/-- A method that is offered after a parameter namespace. -/
structure Method where
  name : String
  call : String
  detail : String
  text : String
deriving DecidableEq, Repr

/-- The methods of parameter namespaces. -/
def namespaceMethods : List Method :=
  [{ name := "objects", call := "objects()", detail := "param.objects() method"
     text :=
       "Returns a dictionary of (parameter_name, parameter_object) pairs for all parameters of " ++
         "this Parameterized object." },
   { name := "values", call := "values()", detail := "param.values() method"
     text :=
       "Returns an iterator of parameter values for all parameters of this Parameterized object." },
   { name := "update", call := "update($0)", detail := "param.update() method"
     text :=
       "Update multiple parameters at once by passing parameter names as keyword arguments." }]

/-- The attributes of all parameters. -/
def commonAttributes : List Term :=
  [⟨"default", "Default value of the parameter"⟩,
   ⟨"doc", "Documentation string for the parameter"⟩,
   ⟨"name", "Name of the parameter"⟩,
   ⟨"label", "Human-readable label for the parameter"⟩,
   ⟨"owner", "The Parameterized class that owns this parameter"⟩,
   ⟨"allow_None", "Whether the parameter allows None values"⟩,
   ⟨"readonly", "Whether the parameter is read-only"⟩,
   ⟨"constant", "Whether the parameter is constant"⟩,
   ⟨"instantiate", "Whether to instantiate the default value"⟩,
   ⟨"per_instance", "Whether the parameter is per-instance"⟩,
   ⟨"precedence", "Precedence level for GUI ordering"⟩,
   ⟨"watchers", "Dictionary of parameter watchers"⟩,
   ⟨"rx", "Reactive expression property for this parameter"⟩]

/-- The attributes of numeric parameters. -/
def numericAttributes : List Term :=
  [⟨"bounds", "Valid range for numeric values (min, max)"⟩,
   ⟨"inclusive_bounds", "Whether bounds are inclusive (bool, bool)"⟩,
   ⟨"softbounds", "Soft bounds for validation"⟩,
   ⟨"step", "Step size for numeric input"⟩]

/-- The attributes of text parameters. -/
def textAttributes : List Term :=
  [⟨"regex", "Regular expression pattern for validation"⟩]

/-- The attributes of container parameters. -/
def containerAttributes : List Term :=
  [⟨"item_type", "Type of items in the container"⟩,
   ⟨"bounds", "Length bounds (min, max)"⟩]

/-- The methods of reactive expressions. -/
def reactiveMethods : List Term :=
  [⟨"and_", "Applies the `and` operator"⟩,
   ⟨"bool", "Reactive version of `bool()`"⟩,
   ⟨"in_", "Checks if value is in a collection"⟩,
   ⟨"is_", "Checks object identity"⟩,
   ⟨"is_not", "Checks absence of object identity"⟩,
   ⟨"len", "Returns length of object"⟩,
   ⟨"map", "Maps a function to collection items"⟩,
   ⟨"or_", "Applies the `or` operator"⟩,
   ⟨"pipe", "Pipes value into a function"⟩,
   ⟨"updating", "Indicates if expression is currently updating"⟩,
   ⟨"when", "Updates only when specific conditions are met"⟩,
   ⟨"where", "Reactive ternary conditional"⟩,
   ⟨"watch", "Triggers side-effect when expression outputs a new event"⟩]

/-- The properties of reactive expressions. -/
def reactiveProperties : List Term :=
  [⟨"value", "Retrieves or sets the current value of the reactive expression"⟩]

/-- The attributes of parameters of a type. -/
def attributesOf (typeName : String) : List Term :=
  commonAttributes ++
    (if ["Integer", "Number", "Float"].contains typeName then numericAttributes else []) ++
    (if typeName = "String" then textAttributes else []) ++
    (if ["List", "Tuple"].contains typeName then containerAttributes else [])

end ParamLens.Editor
