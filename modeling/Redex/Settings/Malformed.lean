/-! # What is wrong with a settings document

    A document may go wrong as a text, in its layout, or in the way its nodes refer to one
    another.  A problem of the text is reported with its line, counted from 1, and a problem
    of the layout with the number of lines before it.  On the first line, and for a problem
    that belongs to no line, no line is reported. -/

namespace Redex.Settings

/-- A problem with a document. -/
inductive Problem where
  /-- The text holds a character that no document may hold. -/
  | controlCharacter
  /-- A character stands where something new starts, and nothing starts with it. -/
  | strayCharacter
  /-- Something stands where only a key can, and no colon is behind it. -/
  | keyWithoutColon
  /-- A colon stands where no mapping can start. -/
  | misplacedValue
  /-- A question mark stands where no mapping can start. -/
  | misplacedKey
  /-- A dash stands where no sequence can start. -/
  | misplacedItem
  /-- Collections are nested too deeply. -/
  | tooDeep
  | unclosedQuote
  /-- A line that separates documents stands within quotes. -/
  | markerInQuote
  | unknownEscape
  /-- An escape for a code point lacks hexadecimal digits. -/
  | missingHexDigit
  /-- An escape gives a number that is no code point. -/
  | invalidCodePoint
  /-- A tab stands in the indentation of a line that continues a plain scalar. -/
  | tabInPlain
  /-- A tab stands in the indentation of a block scalar. -/
  | tabInBlock
  /-- A block scalar gives its indentation as zero. -/
  | zeroIndentation
  /-- Something stands where only a comment or the end of a line can. -/
  | overfullLine
  /-- An anchor or an alias has no proper name. -/
  | missingName
  | missingBang
  | missingUri
  | missingUriEnd
  /-- A tag is not followed by a space or the end of a line. -/
  | overfullTag
  | brokenUriEscape
  | wrongLeadingOctet
  | wrongTrailingOctet
  | missingDirectiveName
  | overfullDirectiveName
  | unknownDirective
  | missingVersion
  | longVersion
  | missingVersionPoint
  | missingTagSpace
  | overfullTagDirective
  /-- A document asks for another version of the format. -/
  | incompatibleVersion
  | repeatedVersion
  | repeatedHandle
  /-- Directives are not followed by the start of a document. -/
  | missingDocumentStart
  /-- A node is missing. -/
  | missingNode
  /-- A block mapping goes on with something that is no key. -/
  | missingBlockKey
  /-- A block sequence goes on with something that is no item. -/
  | missingBlockItem
  | unclosedFlowSequence
  | unclosedFlowMapping
  /-- A tag has a handle that nothing declares. -/
  | undefinedHandle
  | unknownAnchor (name : String)
  /-- A node is merged into itself. -/
  | selfContained (name : String)
  /-- Something is merged that is neither a mapping nor a sequence of mappings. -/
  | unfitMerge
  /-- The text of a scalar does not fit its tag. -/
  | unfitTag (found text tag : String)
  /-- A scalar tagged as binary is not in base 64. -/
  | unfitBinary
deriving DecidableEq, Repr

/-- The deepest nesting of collections that is read. -/
def depthLimit : Nat := 10000

/-- The text of a problem. -/
def Problem.message : Problem → String
  | .controlCharacter => "control characters are not allowed"
  | .strayCharacter => "found character that cannot start any token"
  | .keyWithoutColon => "could not find expected ':'"
  | .misplacedValue => "mapping values are not allowed in this context"
  | .misplacedKey => "mapping keys are not allowed in this context"
  | .misplacedItem => "block sequence entries are not allowed in this context"
  | .tooDeep => "exceeded max depth of " ++ toString depthLimit
  | .unclosedQuote => "found unexpected end of stream"
  | .markerInQuote => "found unexpected document indicator"
  | .unknownEscape => "found unknown escape character"
  | .missingHexDigit => "did not find expected hexdecimal number"
  | .invalidCodePoint => "found invalid Unicode character escape code"
  | .tabInPlain => "found a tab character that violates indentation"
  | .tabInBlock => "found a tab character where an indentation space is expected"
  | .zeroIndentation => "found an indentation indicator equal to 0"
  | .overfullLine => "did not find expected comment or line break"
  | .missingName => "did not find expected alphabetic or numeric character"
  | .missingBang => "did not find expected '!'"
  | .missingUri => "did not find expected tag URI"
  | .missingUriEnd => "did not find the expected '>'"
  | .overfullTag => "did not find expected whitespace or line break"
  | .brokenUriEscape => "did not find URI escaped octet"
  | .wrongLeadingOctet => "found an incorrect leading UTF-8 octet"
  | .wrongTrailingOctet => "found an incorrect trailing UTF-8 octet"
  | .missingDirectiveName => "could not find expected directive name"
  | .overfullDirectiveName => "found unexpected non-alphabetical character"
  | .unknownDirective => "found unknown directive name"
  | .missingVersion => "did not find expected version number"
  | .longVersion => "found extremely long version number"
  | .missingVersionPoint => "did not find expected digit or '.' character"
  | .missingTagSpace => "did not find expected whitespace"
  | .overfullTagDirective => "did not find expected whitespace or line break"
  | .incompatibleVersion => "found incompatible YAML document"
  | .repeatedVersion => "found duplicate %YAML directive"
  | .repeatedHandle => "found duplicate %TAG directive"
  | .missingDocumentStart => "did not find expected <document start>"
  | .missingNode => "did not find expected node content"
  | .missingBlockKey => "did not find expected key"
  | .missingBlockItem => "did not find expected '-' indicator"
  | .unclosedFlowSequence => "did not find expected ',' or ']'"
  | .unclosedFlowMapping => "did not find expected ',' or '\x7d'"
  | .undefinedHandle => "found undefined tag handle"
  | .unknownAnchor name => "unknown anchor '" ++ name ++ "' referenced"
  | .selfContained name => "anchor '" ++ name ++ "' value contains itself"
  | .unfitMerge => "map merge requires map or sequence of maps as the value"
  | .unfitTag found text tag => "cannot decode " ++ found ++ " `" ++ text ++ "` as a " ++ tag
  | .unfitBinary => "!!binary value contains invalid base64 data"

/-- A problem and the line to report, where 0 stands for none. -/
structure Malformed where
  line : Nat
  problem : Problem
deriving DecidableEq, Repr

/-- The report of a problem. -/
def Malformed.message (malformed : Malformed) : String :=
  (if malformed.line = 0 then "" else "line " ++ toString malformed.line ++ ": ")
    ++ malformed.problem.message

end Redex.Settings
