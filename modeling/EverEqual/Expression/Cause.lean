import EverEqual.Expression.Position

/-!
# Why an expression has no meaning

Each cause carries what its text mentions: names, and the texts of types and of operands. The first
fault that is met counts; it is shown behind its position.

* `Cause`: the causes, with `Cause.message`;
* `MeaningError`: a cause and its position, with `MeaningError.message`.
-/

namespace EverEqual.Expression

/-- What an operand is wrongly used for. -/
inductive Misuse
  | type
  | expression
  /-- A predeclared function stands there without a call. -/
  | uncalled
  | value
  | valueOrType
  /-- A value is worked out for nothing. -/
  | nothing
deriving DecidableEq, Repr, Inhabited

/-- What follows the text of an operand that is misused. -/
def Misuse.phrase : Misuse → String
  | type => "is not a type"
  | expression => "is not an expression"
  | uncalled => "must be called"
  | value => "used as value"
  | valueOrType => "used as value or type"
  | nothing => "is not used"

/-- What cannot be done with an operand. -/
inductive Refusal
  | indirect
  | address
  | receive
  | receiveBackward
  | send
  | sendBackward
  | close
  | closeBackward
deriving DecidableEq, Repr, Inhabited

/-- What goes before the text of an operand that is refused. -/
def Refusal.phrase : Refusal → String
  | indirect => "cannot indirect"
  | address => "cannot take address of"
  | receive => "cannot receive from non-channel"
  | receiveBackward => "cannot receive from send-only channel"
  | send => "cannot send to non-channel"
  | sendBackward => "cannot send to receive-only channel"
  | close => "cannot close non-channel"
  | closeBackward => "cannot close receive-only channel"

/-- Why an embedded field cannot have its type. -/
inductive EmbeddingFault
  | pointer
  | interfacePointer
  | unsafePointer
  | parameter
deriving DecidableEq, Repr, Inhabited

/-- What the type of an embedded field cannot be. -/
def EmbeddingFault.phrase : EmbeddingFault → String
  | pointer => "a pointer"
  | interfacePointer => "a pointer to an interface"
  | unsafePointer => "unsafe.Pointer"
  | parameter => "a type parameter"

/-- What is wrong with a statement, apart from its parts. -/
inductive StatementFault
  | strayBreak
  | strayContinue
  | strayFall
  | fallInTypeChoice
  | fallAtEnd
  | missingReturn
  /-- Something is declared at the end of a round of a loop. -/
  | lateDeclaration
  | condition (statement : String)
  | noCall (word : String)
deriving DecidableEq, Repr, Inhabited

/-- The text of a fault of a statement. -/
def StatementFault.message : StatementFault → String
  | strayBreak => "break not in for, switch, or select statement"
  | strayContinue => "continue not in for statement"
  | strayFall => "fallthrough statement out of place"
  | fallInTypeChoice => "cannot fallthrough in type switch"
  | fallAtEnd => "cannot fallthrough final case in switch"
  | missingReturn => "missing return"
  | lateDeclaration => "cannot declare in post statement"
  | condition statement => "non-boolean condition in " ++ statement ++ " statement"
  | noCall word => "expression in " ++ word ++ " must be function call"

/-- Why a part of an expression has no meaning. -/
inductive Cause
  | undefined (name : String)
  /-- Another name differs only by its case. -/
  | misspelled (name other : String)
  /-- A package stands where a type or value is needed. -/
  | packageAlone (name : String)
  /-- The blank name is used. -/
  | blank
  /-- The constant counter is used outside constants. -/
  | counter
  /-- A name of another package is not exported. -/
  | unexported (name package : String)
  /-- A name stands for another kind of thing than a type. -/
  | wrongKind (name kind : String)
  /-- The length of an array is a name that is not defined. -/
  | undefinedLength (name : String)
  | redeclared (name : String)
  | repeatedField (name : String)
  | repeatedMethod (name : String)
  | blankMethod
  /-- A variable is declared but its value is never used. -/
  | unused (name : String)
  /-- The name of a value whose type is asked for is not used in any clause. -/
  | unusedSubject (name : String)
  | undefinedLabel (name : String)
  | unusedLabel (name : String)
  | repeatedLabel (name : String)
  /-- A jump names a label that it cannot leave or go on with. -/
  | wrongLabel (word name : String)
  /-- A jump goes to a label inside another block. -/
  | intoBlock (name : String)
  /-- A variable is declared between a jump and its label. -/
  | overVariable (name : String) (line : Nat)
  /-- A declaration by assignment has something else than a name on its left. -/
  | noName (text : String)
  | repeatedName (name : String)
  | noNewName
  /-- The value whose type is asked for gets the blank name. -/
  | noNewVariable
  | misused (operand : String) (misuse : Misuse)
  | manyValues (operand : String)
  | refused (refusal : Refusal) (operand : String)
  /-- A value or type has no member of a name. -/
  | noMember (base name why : String)
  | ambiguousMember (base name : String)
  | pointerMethod (name type : String)
  | pointerMethodOfType (type name : String)
  | memberOfFunction (operand : String)
  /-- A type stands in front of the name of a field. -/
  | fieldOfType (name type : String)
  /-- A value is called that is no function. -/
  | noFunction (operand type : String)
  /-- A generic type stands without arguments. -/
  | genericAlone (text : String)
  | notGeneric (text type : String)
  | typeArguments (isFew : Bool) (name : String) (given wanted : Nat)
  /-- An argument does not meet its constraint. -/
  | unmet (reason : String)
  /-- An array leaves its length to elements that it does not have. -/
  | openArray
  /-- An interface that is only for constraints is the type of a value. -/
  | constraintAlone (type : String) (isComparable : Bool)
  | keyType (type : String) (isParameter : Bool)
  | recursiveType (name : String)
  /-- A type contains itself by way of others. -/
  | recursiveTypes (name : String)
  /-- A parameter is the constraint of another one. -/
  | parameterConstraint
  /-- A declared type is nothing but a parameter. -/
  | parameterAlone (isAlias : Bool)
  | embedding (fault : EmbeddingFault)
  | tildeInterface (type : String)
  | tildeUnderlying (type underlying : String)
  | unionMethods (type : String)
  | unionComparable
  | unionEmbedsComparable (type : String)
  | overlap (type other : String)
  | manyTerms (most : Nat)
  | parameterTerm
  | parameterTilde (text : String)
  | lengthName (name : String)
  | lengthValue (operand : String)
  | lengthNotConstant (operand : String)
  | lengthNotWhole (operand : String)
  | constantOverflow (operation : String)
  /-- A constant is too large to be worked out. -/
  | constantUnknown
  | longNumber (start : String) (length : Nat)
  | malformedNumber (text : String)
  | operator (op operand : String)
  | mismatched (text type other : String)
  | divisionByZero
  | shiftCount (operand : String)
  | negativeShift (operand : String)
  | shiftNotWhole (operand : String)
  | shifted (operand : String)
  /-- A shifted constant gets a type that is not whole. -/
  | shiftedType (text type : String)
  /-- Two values cannot be compared. -/
  | comparison (text why : String)
  | tildeValue (isWhole : Bool)
  | typeQuestion
  | notInterface (operand : String)
  /-- No value of an interface can be of a type. -/
  | impossibleAssertion (text type interface why : String)
  | impossibleCase (text operand type why : String)
  | noIndex (operand : String)
  | noSlice (operand : String)
  | sliceOfValue (operand : String)
  | limitOfText
  | bounds (high low : Int)
  | manyIndices
  | indexNotWhole (what operand : String)
  | indexNegative (what operand : String)
  | indexOverflows (what operand : String)
  | indexBeyond (index : String) (length : Int)
  | elementBeyond (index length : Int)
  | indexNotConstant (text : String)
  | repeatedIndex (index : Int)
  | repeatedKey (value : String)
  | missingKey
  | untypedLiteral
  | literalType (isElement : Bool) (type : String)
  | mixedElements
  | fieldName (text : String)
  | noField (text : String)
  | repeatedValue (name : String)
  /-- A field has a value, and so has the embedded field that contains it. -/
  | embeddedValue (embedded name : String)
  | promotedValue (name embedded : String)
  /-- A field can only be reached through a pointer. -/
  | behindPointer (name : String)
  | valueCount (isFew : Bool) (type : String)
  | hiddenField (name type : String)
  | pairAlone
  | arguments (isFew : Bool) (callee given wanted : String)
  | functionArguments (isFew : Bool) (text : String) (wanted found : Nat)
  | functionArgument (operand name : String)
  | spreadArgument (name : String)
  /-- An argument is spread over parameters that are fixed. -/
  | spreadFixed (callee : String)
  /-- Several values are spread at once. -/
  | spreadMany (count : Nat) (text : String)
  | spreadConversion (type : String)
  /-- Something is added to what is no slice, or copied from or to it. -/
  | noSliceArgument (name operand : String)
  | copiedElements (operand other type otherType : String)
  | cleared (operand : String)
  | noMap (operand : String)
  /-- Values that have no order are compared by it. -/
  | unordered (operand : String)
  | mismatchedArgument (type other text : String)
  | notFloating (type : String)
  | notComplex (type : String)
  /-- The length is greater than the capacity. -/
  | swappedSizes
  | makeArguments (text : String) (least found : Nat)
  | makes (type : String)
  | conversionArguments (isFew : Bool) (type : String)
  | conversion (operand type detail : String)
  /-- A constant is too large for its type. -/
  | overflows (text type : String)
  /-- A constant is not whole, but its type is. -/
  | truncated (operand type : String)
  | constraintConversion (type : String)
  | cannotUse (operand type context detail : String)
  | untypedNil (context : String)
  | unassignable (text : String)
  /-- A name that is declared again stands for something else than a variable. -/
  | noVariable (name : String)
  /-- A field of a struct in a map cannot be assigned to. -/
  | mapField (text : String)
  /-- A number is counted up or down that is none. -/
  | stepType (text type : String)
  | assignCount (op : String)
  | notConstant (operand : String)
  | constantType (type : String)
  | extraValue
  | missingValue (name : String)
  | declaresPart (text : String)
  | switchOn (operand : String)
  /-- Two clauses are for all that is left. -/
  | repeatedDefault (first : Position)
  | repeatedCase (operand : String)
  | repeatedType (type : String)
  /-- A case cannot be compared with what the choice is about. -/
  | wrongCase (text subject why : String)
  | noInterfaceValue (operand : String)
  | readyCase
  | countMismatch (left right : String)
  | results (isFew : Bool) (given wanted : String)
  /-- A named result goes back, but its name stands for something else. -/
  | hiddenResult (name : String)
  | rangeOver (operand why : String)
  | rangeNames (operand : String) (count : Nat)
  /-- The elements of a loop over numbers go to a place that is not whole. -/
  | rangePlace (type : String)
  | discarded (word what operand : String)
  | statement (fault : StatementFault)
deriving DecidableEq, Repr, Inhabited

/-- The word for a count that is wrong. -/
def countWord (isFew : Bool) : String :=
  if isFew then "not enough" else "too many"

/-- Two lists of types, one below the other. -/
def haveWant (given wanted : String) : String :=
  "\n\thave " ++ given ++ "\n\twant " ++ wanted

namespace Cause

/-- What a message starts with if an operation cannot be done. -/
def operation (s : String) : String := "invalid operation: " ++ s

/-- What a message starts with if an argument is refused. -/
def argument (s : String) : String := "invalid argument: " ++ s

/-- The text of a cause. -/
def message : Cause → String
  | undefined name => "undefined: " ++ name
  | misspelled name other => "undefined: " ++ name ++ " (but have " ++ other ++ ")"
  | packageAlone name => "use of package " ++ name ++ " not in selector"
  | blank => "cannot use _ as value or type"
  | counter => "cannot use iota outside constant declaration"
  | unexported name package => "name " ++ name ++ " not exported by package " ++ package
  | wrongKind name kind => name ++ " (" ++ kind ++ ") is not a type"
  | undefinedLength name => "undefined array length " ++ name ++ " or missing type constraint"
  | redeclared name => name ++ " redeclared in this block"
  | repeatedField name => name ++ " redeclared"
  | repeatedMethod name => "duplicate method " ++ name
  | blankMethod => "methods must have a unique non-blank name"
  | unused name => "declared and not used: " ++ name
  | unusedSubject name => name ++ " declared and not used"
  | undefinedLabel name => "label " ++ name ++ " not declared"
  | unusedLabel name => "label " ++ name ++ " declared and not used"
  | repeatedLabel name => "label " ++ name ++ " already declared"
  | wrongLabel word name => "invalid " ++ word ++ " label " ++ name
  | intoBlock name => "goto " ++ name ++ " jumps into block"
  | overVariable name line =>
    "goto " ++ name ++ " jumps over variable declaration at line " ++ toString line
  | noName text => "non-name " ++ text ++ " on left side of :="
  | repeatedName name => name ++ " repeated on left side of :="
  | noNewName => "no new variables on left side of :="
  | noNewVariable => "no new variable on left side of :="
  | misused operand misuse => operand ++ " " ++ misuse.phrase
  | manyValues operand => "multiple-value " ++ operand ++ " in single-value context"
  | refused refusal operand => operation (refusal.phrase ++ " " ++ operand)
  | noMember base name why => base ++ "." ++ name ++ " undefined (" ++ why ++ ")"
  | ambiguousMember base name => "ambiguous selector " ++ base ++ "." ++ name
  | pointerMethod name type => "cannot call pointer method " ++ name ++ " on " ++ type
  | pointerMethodOfType type name =>
    "invalid method expression " ++ type ++ "." ++ name ++ " (needs pointer receiver (*" ++ type ++
      ")." ++ name ++ ")"
  | memberOfFunction operand => "invalid use of " ++ operand ++ " in selector expression"
  | fieldOfType name type =>
    "operand for field selector " ++ name ++ " must be value of type " ++ type
  | noFunction operand type =>
    operation ("cannot call " ++ operand ++ ": " ++ type ++ " is not a function")
  | genericAlone text => "cannot use generic type " ++ text ++ " without instantiation"
  | notGeneric text type => operation (text ++ " (" ++ type ++ " is not a generic type)")
  | typeArguments isFew name given wanted =>
    countWord isFew ++ " type arguments for type " ++ name ++ ": have " ++ toString given ++
      ", want " ++ toString wanted
  | unmet reason => reason
  | openArray => "invalid use of [...] array (outside a composite literal)"
  | constraintAlone type isComparable =>
    "cannot use type " ++ type ++ " outside a type constraint: interface " ++
      if isComparable then "is (or embeds) comparable" else "contains type constraints"
  | keyType type isParameter =>
    "invalid map key type " ++ type ++
      if isParameter then " (missing comparable constraint)" else ""
  | recursiveType name => "invalid recursive type: " ++ name ++ " refers to itself"
  | recursiveTypes name => "invalid recursive type " ++ name
  | parameterConstraint => "cannot use a type parameter as constraint"
  | parameterAlone isAlias =>
    if isAlias then "cannot use type parameter declared in alias declaration as RHS"
    else "cannot use a type parameter as RHS in type declaration"
  | embedding fault => "embedded field type cannot be " ++ fault.phrase
  | tildeInterface type => "invalid use of ~ (" ++ type ++ " is an interface)"
  | tildeUnderlying type underlying =>
    "invalid use of ~ (underlying type of " ++ type ++ " is " ++ underlying ++ ")"
  | unionMethods type => "cannot use " ++ type ++ " in union (" ++ type ++ " contains methods)"
  | unionComparable => "cannot use comparable in union"
  | unionEmbedsComparable type =>
    "cannot use " ++ type ++ " in union (" ++ type ++ " embeds comparable)"
  | overlap type other => "overlapping terms " ++ type ++ " and " ++ other
  | manyTerms most =>
    "cannot handle more than " ++ toString most ++ " union terms (implementation limitation)"
  | parameterTerm => "term cannot represent type parameter"
  | parameterTilde text => "type in term " ++ text ++ " cannot be a type parameter"
  | lengthName name => "invalid array length " ++ name
  | lengthValue operand => "invalid array length " ++ operand
  | lengthNotConstant operand => "array length " ++ operand ++ " must be constant"
  | lengthNotWhole operand => "array length " ++ operand ++ " must be integer"
  | constantOverflow what => "constant " ++ what ++ "overflow"
  | constantUnknown => "constant result is not representable"
  | longNumber start length =>
    "excessively long constant: " ++ start ++ "... (" ++ toString length ++ " chars)"
  | malformedNumber text => "malformed constant: " ++ text
  | operator op operand => operation ("operator " ++ op ++ " not defined on " ++ operand)
  | mismatched text type other =>
    operation (text ++ " (mismatched types " ++ type ++ " and " ++ other ++ ")")
  | divisionByZero => operation "division by zero"
  | shiftCount operand => operation ("invalid shift count " ++ operand)
  | negativeShift operand => operation ("negative shift count " ++ operand)
  | shiftNotWhole operand => operation ("shift count " ++ operand ++ " must be integer")
  | comparison text why => operation (text ++ " (" ++ why ++ ")")
  | shifted operand => operation ("shifted operand " ++ operand ++ " must be integer")
  | shiftedType text type =>
    operation ("shifted operand " ++ text ++ " (type " ++ type ++ ") must be integer")
  | tildeValue isWhole =>
    "cannot use ~ outside of interface or type constraint" ++
      if isWhole then " (use ^ for bitwise complement)" else ""
  | typeQuestion => "use of .(type) outside type switch"
  | notInterface operand => operation (operand ++ " is not an interface")
  | impossibleAssertion text type interface why =>
    "impossible type assertion: " ++ text ++ "\n\t" ++ type ++ " does not implement " ++
      interface ++ " " ++ why
  | impossibleCase text operand type why =>
    "impossible type switch case: " ++ text ++ "\n\t" ++ operand ++
      " cannot have dynamic type " ++ type ++ " " ++ why
  | noIndex operand => "cannot index " ++ operand
  | noSlice operand => "cannot slice " ++ operand
  | sliceOfValue operand => "cannot slice unaddressable value " ++ operand
  | limitOfText => operation "3-index slice of string"
  | bounds high low =>
    "invalid slice indices: " ++ toString high ++ " < " ++ toString low
  | manyIndices => operation "more than one index"
  | indexNotWhole what operand => argument (what ++ " " ++ operand ++ " must be integer")
  | indexNegative what operand => argument (what ++ " " ++ operand ++ " must not be negative")
  | indexOverflows what operand => argument (what ++ " " ++ operand ++ " overflows int")
  | indexBeyond index length =>
    argument ("index " ++ index ++ " out of bounds [0:" ++ toString length ++ "]")
  | elementBeyond index length =>
    "index " ++ toString index ++ " is out of bounds (>= " ++ toString length ++ ")"
  | indexNotConstant text => "index " ++ text ++ " must be integer constant"
  | repeatedIndex index =>
    "duplicate index " ++ toString index ++ " in array or slice literal"
  | repeatedKey value => "duplicate key " ++ value ++ " in map literal"
  | missingKey => "missing key in map literal"
  | untypedLiteral => "missing type in composite literal"
  | literalType isElement type =>
    "invalid composite literal" ++ (if isElement then " element" else "") ++ " type " ++ type
  | mixedElements => "mixture of field:value and value elements in struct literal"
  | fieldName text => "invalid field name " ++ text ++ " in struct literal"
  | noField text => text
  | repeatedValue name => "duplicate field name " ++ name ++ " in struct literal"
  | embeddedValue embedded name =>
    "cannot specify embedded field " ++ embedded ++ " and enclosed promoted field " ++ name
  | promotedValue name embedded =>
    "cannot specify promoted field " ++ name ++ " and enclosing embedded field " ++ embedded
  | behindPointer name =>
    "invalid implicit pointer indirection to reach promoted field " ++ name
  | valueCount isFew type =>
    (if isFew then "too few" else "too many") ++ " values in struct literal of type " ++ type
  | hiddenField name type =>
    "implicit assignment to unexported field " ++ name ++ " in struct literal of type " ++ type
  | pairAlone => "no key:value expected"
  | arguments isFew callee given wanted =>
    countWord isFew ++ " arguments in call to " ++ callee ++ haveWant given wanted
  | functionArguments isFew text wanted found =>
    operation (countWord isFew ++ " arguments for " ++ text ++ " (expected " ++ toString wanted ++
      ", found " ++ toString found ++ ")")
  | functionArgument operand name => argument (operand ++ " for built-in " ++ name)
  | spreadArgument name => operation ("invalid use of ... with built-in " ++ name)
  | spreadFixed callee => "cannot use ... in call to non-variadic " ++ callee
  | spreadMany count text => "cannot use ... with " ++ toString count ++ "-valued " ++ text
  | spreadConversion type => "invalid use of ... in conversion to " ++ type
  | noSliceArgument name operand =>
    "invalid " ++ name ++ ": argument must be a slice; have " ++ operand
  | copiedElements operand other type otherType =>
    "invalid copy: arguments " ++ operand ++ " and " ++ other ++ " have different element types " ++
      type ++ " and " ++ otherType
  | cleared operand => argument ("clear " ++ operand ++ " must be a map or slice")
  | noMap operand => argument (operand ++ " is not a map")
  | unordered operand => argument (operand ++ " cannot be ordered")
  | mismatchedArgument type other text =>
    argument ("mismatched types " ++ type ++ " (previous argument) and " ++ other ++ " (type of " ++
      text ++ ")")
  | notFloating type => argument ("arguments have type " ++ type ++ ", expected floating-point")
  | notComplex type => argument ("argument has type " ++ type ++ ", expected complex type")
  | swappedSizes => argument "length and capacity swapped"
  | makeArguments text least found =>
    operation (text ++ " expects " ++ toString least ++ " or " ++ toString (least + 1) ++
      " arguments; found " ++ toString found)
  | makes type =>
    argument ("cannot make " ++ type ++ ": type must be slice, map, or channel")
  | conversionArguments isFew type =>
    (if isFew then "missing argument" else "too many arguments") ++ " in conversion to " ++ type
  | conversion operand type detail => "cannot convert " ++ operand ++ " to type " ++ type ++ detail
  | overflows text type => text ++ " overflows " ++ type
  | truncated operand type => operand ++ " truncated to " ++ type
  | constraintConversion type =>
    "cannot use interface " ++ type ++
      " in conversion (contains specific type constraints or is comparable)"
  | cannotUse operand type context detail =>
    "cannot use " ++ operand ++ " as " ++ type ++ " value in " ++ context ++ detail
  | untypedNil context => "use of untyped nil in " ++ context
  | unassignable text =>
    "cannot assign to " ++ text ++ " (neither addressable nor a map index expression)"
  | noVariable name => "cannot assign to " ++ name
  | mapField text => "cannot assign to struct field " ++ text ++ " in map"
  | stepType text type => operation (text ++ " (non-numeric type " ++ type ++ ")")
  | assignCount op => "assignment operation " ++ op ++ " requires single-valued expressions"
  | notConstant operand => operand ++ " is not constant"
  | constantType type => "invalid constant type " ++ type
  | extraValue => "extra init expr"
  | missingValue name => "missing init expr for " ++ name
  | declaresPart text => "invalid syntax tree: cannot declare " ++ text
  | switchOn operand => "cannot switch on " ++ operand
  | repeatedDefault first => "multiple defaults (first at " ++ first.text ++ ")"
  | repeatedCase operand => "duplicate case " ++ operand ++ " in expression switch"
  | repeatedType type => "duplicate case " ++ type ++ " in type switch"
  | wrongCase text subject why =>
    "invalid case " ++ text ++ " in switch on " ++ subject ++ " (" ++ why ++ ")"
  | noInterfaceValue operand => operand ++ " is not an interface"
  | readyCase => "select case must be send or receive (possibly with assignment)"
  | countMismatch left right => "assignment mismatch: " ++ left ++ " but " ++ right
  | results isFew given wanted => countWord isFew ++ " return values" ++ haveWant given wanted
  | hiddenResult name => "result parameter " ++ name ++ " not in scope at return"
  | rangeOver operand why =>
    "cannot range over " ++ operand ++ (if why = "" then "" else ": " ++ why)
  | rangeNames operand count =>
    "range over " ++ operand ++
      if count = 0 then " permits no iteration variables"
      else " permits only one iteration variable"
  | rangePlace type => "cannot use iteration variable of type " ++ type
  | discarded word what operand => word ++ " " ++ what ++ " " ++ operand
  | statement fault => fault.message

end Cause

/-- A part of an expression that has no meaning, by its position. -/
structure MeaningError where
  position : Position
  cause : Cause
deriving DecidableEq, Repr, Inhabited

/-- The text of an error with its position. -/
def MeaningError.message (e : MeaningError) : String :=
  e.position.text ++ ": " ++ e.cause.message

end EverEqual.Expression
