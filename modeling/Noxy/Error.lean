import Noxy.Fault
import Noxy.Location

/-!
# Errors

What can be wrong with a text, a program or a run, given as causes.
-/

namespace Noxy

inductive LexicalCause where
  | unclosedString
  | unclosedBytes
  | unclosedTemplate
  | unclosedInterpolation
  | invalidByteEscape (digits : String)
  | unexpectedChar (c : Char)
  deriving DecidableEq, Repr

def LexicalCause.message : LexicalCause → String
  | unclosedString => "String não fechada"
  | unclosedBytes => "Literal bytes não fechado"
  | unclosedTemplate => "F-string não fechada"
  | unclosedInterpolation => "F-string interpolação não fechada"
  | invalidByteEscape digits => "Sequência de escape bytes inválida: \\x" ++ digits
  | unexpectedChar c => s!"Caractere inesperado: '{c}'"

inductive Required where
  | bracketAfterMap
  | commaAfterKeyType
  | closingBracket
  | structName
  | structNameAfterDot
  | arraySize
  | fieldName
  | openingParen
  | closingParen
  | parenAfterZeros
  | colonAfterKey
  | closingBrace
  | variableName
  | colon
  | equals
  | functionName
  | parameterName
  | thenWord
  | doWord
  | endWord
  | moduleName
  | aliasName
  | symbolName
  deriving DecidableEq, Repr

def Required.message : Required → String
  | bracketAfterMap => "'[' esperado após 'map'"
  | commaAfterKeyType => "',' esperado após tipo da chave"
  | closingBracket => "']' esperado"
  | structName => "Nome do struct esperado"
  | structNameAfterDot => "Nome do struct esperado após '.'"
  | arraySize => "Tamanho do array esperado"
  | fieldName => "Nome do campo esperado"
  | openingParen => "'(' esperado"
  | closingParen => "')' esperado"
  | parenAfterZeros => "'(' esperado após 'zeros'"
  | colonAfterKey => "':' esperado após chave do mapa"
  | closingBrace => "'\x7d' esperado após elementos do mapa"
  | variableName => "Nome da variável esperado"
  | colon => "':' esperado"
  | equals => "'=' esperado"
  | functionName => "Nome da função esperado"
  | parameterName => "Nome do parâmetro esperado"
  | thenWord => "'then' esperado"
  | doWord => "'do' esperado"
  | endWord => "'end' esperado"
  | moduleName => "Nome do módulo esperado"
  | aliasName => "Nome do alias esperado"
  | symbolName => "Nome do símbolo esperado"

inductive GrammarCause where
  | missing (required : Required)
  | notType (found : String)
  | notExpression (found : String)
  | notStructField (found : String)
  deriving DecidableEq, Repr

def GrammarCause.message : GrammarCause → String
  | missing required => required.message
  | notType found => s!"Tipo esperado, encontrado '{found}'"
  | notExpression found => s!"Expressão esperada, encontrado '{found}'"
  | notStructField found => s!"Esperado campo de struct ou 'end', encontrado '{found}'"

inductive TypingCause where
  | moduleNotFound (path : String)
  | importFailed (reason : String)
  | symbolNotFound (symbol path : String)
  | elementMismatch (expected actual : String)
  | initializerMismatch (expected actual : String)
  | assignmentMismatch (expected actual : String)
  | ifCondition (actual : String)
  | whileCondition (actual : String)
  | returnsNothing (expected : String)
  | returnMismatch (expected actual : String)
  | undefinedVariable (name : String)
  | zerosSize (actual : String)
  | concatenation (type : String)
  | operandsDiffer (operator left right : String)
  | notNumeric (operator : String)
  | comparedDiffer
  | notBool (operator : String)
  | negatesNonNumber
  | invertsNonBool
  | constructorArity (name : String) (expected actual : Nat)
  | constructorField (field expected actual : String)
  | memberNotFound (name moduleName : String)
  | functionArity (name : String) (expected actual : Nat)
  | functionArgument (position : Nat) (name actual expected : String)
  | notCallable (name : String)
  | arrayMethod (name : String)
  | mapMethod (name : String)
  | argumentMismatch (expected actual : String)
  | undefinedFunction (name : String)
  | unsupportedMethod (name type : String)
  | arrayIndex (actual : String)
  | stringIndex (actual : String)
  | bytesIndex (actual : String)
  | keyMismatch (expected actual : String)
  | notIndexable (type : String)
  | undefinedStruct (name : String) (moduleName : Option String)
  | missingField (struct field : String)
  | functionAsValue
  | structAsValue
  | noFields (type : String)
  | mixedElements (first other : String)
  | mixedKeys (expected actual : String)
  | mixedValues (expected actual : String)
  deriving DecidableEq, Repr

def TypingCause.message : TypingCause → String
  | moduleNotFound path => s!"Módulo não encontrado: {path}"
  | importFailed reason => s!"Erro ao importar módulo: {reason}"
  | symbolNotFound symbol path => s!"Símbolo '{symbol}' não encontrado no módulo '{path}'"
  | elementMismatch expected actual =>
    s!"Tipo do elemento do array não corresponde: esperado '{expected}', obtido '{actual}'"
  | initializerMismatch expected actual =>
    "Tipo do valor inicial não corresponde ao tipo declarado: " ++
      s!"esperado '{expected}', obtido '{actual}'"
  | assignmentMismatch expected actual =>
    s!"Não é possível atribuir valor do tipo '{actual}' a variável do tipo '{expected}'. " ++
      "O tipo de uma variável não pode ser alterado após a declaração."
  | ifCondition actual => s!"Condição do if deve ser bool, obtido '{actual}'"
  | whileCondition actual => s!"Condição do while deve ser bool, obtido '{actual}'"
  | returnsNothing expected => s!"Função deve retornar '{expected}', mas retorna void"
  | returnMismatch expected actual => s!"Função deve retornar '{expected}', mas retorna '{actual}'"
  | undefinedVariable name => s!"Variável '{name}' não definida"
  | zerosSize actual => s!"Tamanho de zeros() deve ser int, obtido '{actual}'"
  | concatenation type => s!"Concatenação requer {type} + {type}"
  | operandsDiffer operator left right =>
    s!"Operador '{operator}' requer operandos do mesmo tipo, obtido '{left}' e '{right}'"
  | notNumeric operator => s!"Operador '{operator}' requer tipos numéricos"
  | comparedDiffer => "Comparação requer operandos do mesmo tipo"
  | notBool operator => s!"Operador '{operator}' requer operandos bool"
  | negatesNonNumber => "Operador '-' requer tipo numérico"
  | invertsNonBool => "Operador '!' requer tipo bool"
  | constructorArity name expected actual =>
    s!"Construtor '{name}' espera {expected} argumentos, recebeu {actual}"
  | constructorField field expected actual =>
    s!"Argumento para campo '{field}' tem tipo errado: esperado '{expected}', obtido '{actual}'"
  | memberNotFound name moduleName => s!"Membro '{name}' não encontrado no módulo '{moduleName}'"
  | functionArity name expected actual =>
    s!"Função '{name}' espera {expected} argumentos, recebeu {actual}"
  | functionArgument position name actual expected =>
    s!"Argumento {position} da função '{name}' tem tipo '{actual}', esperado '{expected}'"
  | notCallable name => s!"'{name}' não é chamável"
  | arrayMethod name => s!"Método '{name}' não suportado para Array"
  | mapMethod name => s!"Método '{name}' não suportado para Map"
  | argumentMismatch expected actual =>
    s!"Argumento tem tipo errado: esperado '{expected}', obtido '{actual}'"
  | undefinedFunction name => s!"Função '{name}' não definida"
  | unsupportedMethod name type => s!"Método '{name}' não suportado em '{type}'"
  | arrayIndex actual => s!"Índice de array deve ser int, obtido '{actual}'"
  | stringIndex actual => s!"Índice de string deve ser int, obtido '{actual}'"
  | bytesIndex actual => s!"Índice de bytes deve ser int, obtido '{actual}'"
  | keyMismatch expected actual =>
    s!"Tipo da chave incorreto: esperado '{expected}', obtido '{actual}'"
  | notIndexable type => s!"Tipo '{type}' não suporta indexação"
  | undefinedStruct name none => s!"Struct '{name}' não definido"
  | undefinedStruct name (some moduleName) =>
    s!"Struct '{name}' não definido no módulo '{moduleName}'"
  | missingField struct field => s!"Struct '{struct}' não tem campo '{field}'"
  | functionAsValue => "Funções não podem ser usadas como valores"
  | structAsValue => "Structs não podem ser usados como valores"
  | noFields type => s!"Tipo '{type}' não suporta acesso a campos"
  | mixedElements first other =>
    s!"Elementos do array têm tipos inconsistentes: '{first}' e '{other}'"
  | mixedKeys expected actual =>
    s!"Chaves do mapa têm tipos inconsistentes: esperado '{expected}', obtido '{actual}'"
  | mixedValues expected actual =>
    s!"Valores do mapa têm tipos inconsistentes: esperado '{expected}', obtido '{actual}'"

inductive RuntimeCause where
  | undefinedVariable (name : String)
  | undefinedFunction (name : String)
  | divisionByZero
  | moduloByZero
  | indexOutOfRange (index : String)
  | indexOutside (index : String) (length : Nat)
  | elementOutside (index : String) (length : Nat)
  | indexNotInteger
  | immutableString
  | notIndexable (className : String)
  | noFields (className : String)
  | invalidTarget (className : String)
  | noDefault (struct : String)
  | moduleNotFound (path : String)
  | symbolNotFound (symbol moduleName : String)
  | mutableKey
  | zerosSize
  | unsupportedMethod (family name : String)
  | notCallable (className : String)
  | constructorArity (name : String) (expected actual : Nat)
  | functionArity (name : String) (expected actual : Nat)
  | fieldOfNull
  | missingKey (key : String)
  | missingField (struct field : String)
  | missingMember (moduleName name : String)
  | notConvertible (shown target : String)
  | byteRange (value : String)
  | byteArray
  | wrongArgument (function expected actual : String)
  | wrongArguments (function expected : String)
  | noLength (className : String)
  | notRemovable (className : String)
  | popEmpty
  | zerosNegative (size : String)
  | zerosTooLarge (limit : Nat) (size : String)
  | repeatNegative
  | repeatLimit
  | padChar (function : String)
  | padWidth (function : String)
  | charOutside (index : String) (length : Nat)
  | charCode (code : String)
  | fileMode (mode : String)
  | closedSocket
  | acceptFailed (reason : String)
  | invalidDate (reason : String)
  | dateFormat (text expected : String)
  deriving DecidableEq, Repr

def RuntimeCause.message : RuntimeCause → String
  | undefinedVariable name => s!"Variável '{name}' não definida"
  | undefinedFunction name => s!"Função '{name}' não definida"
  | divisionByZero => "Divisão por zero"
  | moduloByZero => "Módulo por zero"
  | indexOutOfRange index => s!"Índice {index} fora dos limites"
  | indexOutside index length => s!"Índice {index} fora dos limites [0, {length})"
  | elementOutside index length => s!"Índice {index} fora dos limites [0, {length})"
  | indexNotInteger => "Índice deve ser inteiro"
  | immutableString => "Strings são imutáveis"
  | notIndexable className => s!"Tipo não suporta indexação: <class '{className}'>"
  | noFields className => s!"Tipo não suporta acesso a campo: <class '{className}'>"
  | invalidTarget className => s!"Alvo de atribuição inválido: <class '{className}'>"
  | noDefault struct => s!"Struct '{struct}' não encontrado para inicialização padrão"
  | moduleNotFound path => s!"Módulo não encontrado: {path}"
  | symbolNotFound symbol moduleName =>
    s!"Símbolo '{symbol}' não encontrado no módulo '{moduleName}'"
  | mutableKey => "Chave de mapa inválida: tipo mutável"
  | zerosSize => "Tamanho de zeros() deve ser int"
  | unsupportedMethod family name => s!"Método {family} '{name}' não suportado"
  | notCallable className => s!"Não é possível chamar: <class '{className}'>"
  | constructorArity name expected actual =>
    s!"Construtor '{name}' espera {expected} argumentos, recebeu {actual}"
  | functionArity name expected actual =>
    s!"Função '{name}' espera {expected} argumentos, recebeu {actual}"
  | fieldOfNull => "Tentativa de acessar campo em null"
  | missingKey key => s!"Chave '{key}' não encontrada no mapa"
  | missingField struct field => s!"Struct '{struct}' não tem campo '{field}'"
  | missingMember moduleName name => s!"Módulo '{moduleName}' não tem o membro '{name}'"
  | notConvertible shown target => s!"Não é possível converter {shown} para {target}"
  | byteRange value => s!"Inteiro {value} fora do range de byte (0-255)"
  | byteArray => "Array deve conter apenas inteiros 0-255 para converter para bytes"
  | wrongArgument function expected actual => s!"{function}() espera {expected}, recebeu {actual}"
  | wrongArguments function expected => s!"{function}() espera {expected}"
  | noLength className => s!"Tipo <class '{className}'> não tem tamanho"
  | notRemovable className => s!"remove requer array, recebido <class '{className}'>"
  | popEmpty => "pop() em array vazio"
  | zerosNegative size => s!"zeros() não aceita tamanho negativo: {size}"
  | zerosTooLarge limit size => s!"zeros() tamanho máximo é {limit}, solicitado: {size}"
  | repeatNegative => "repeat() não aceita valor negativo"
  | repeatLimit => "repeat() limite máximo é 10000 repetições"
  | padChar function => s!"{function}() char deve ter exatamente 1 caractere"
  | padWidth function => s!"{function}() width máximo é 10000"
  | charOutside index length => s!"char_at() índice {index} fora dos limites [0, {length})"
  | charCode code => s!"from_char_code() código {code} fora do range Unicode válido"
  | fileMode mode => s!"Modo de arquivo inválido: '{mode}'"
  | closedSocket => "Socket inválido ou fechado"
  | acceptFailed reason => s!"Erro no accept: {reason}"
  | invalidDate reason => s!"Data inválida: {reason}"
  | dateFormat text expected => s!"Formato de data inválido: '{text}'. Esperado: '{expected}'"

inductive ErrorKind where
  | lexical
  | grammar
  | typing
  | runtime
  | name
  | index
  | division
  deriving DecidableEq, Repr

def RuntimeCause.kind : RuntimeCause → ErrorKind
  | undefinedVariable _ => .name
  | undefinedFunction _ => .name
  | divisionByZero => .division
  | moduloByZero => .division
  | indexOutOfRange _ => .index
  | indexOutside _ _ => .index
  | _ => .runtime

inductive Error where
  | lexical (cause : LexicalCause) (location : Location)
  | grammar (cause : GrammarCause) (location : Location)
  | typing (cause : TypingCause) (location : Location)
  | runtime (cause : RuntimeCause) (location : Option Location)
  deriving DecidableEq, Repr

namespace Error

def kind : Error → ErrorKind
  | lexical _ _ => .lexical
  | grammar _ _ => .grammar
  | typing _ _ => .typing
  | runtime cause _ => cause.kind

def location? : Error → Option Location
  | lexical _ location => some location
  | grammar _ location => some location
  | typing _ location => some location
  | runtime _ location => location

def wording : Error → String
  | lexical cause _ => cause.message
  | grammar cause _ => cause.message
  | typing cause _ => cause.message
  | runtime cause _ => cause.message

def message (error : Error) : String :=
  match error.location? with
  | some location => "[" ++ location.text ++ "] " ++ error.wording
  | none => error.wording

end Error

/-- What can go wrong before a program runs: an error of the language, a fault, or a bound on the
number of steps that was too small. -/
inductive Failure where
  | error (cause : Error)
  | fault (cause : Fault)
  | exhausted
  deriving DecidableEq, Repr

def Failure.message : Failure → String
  | .error cause => cause.message
  | .fault cause => cause.text
  | .exhausted => ""

end Noxy
