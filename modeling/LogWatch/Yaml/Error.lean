/-!
Why a text is not the document that was asked for.
-/

namespace LogWatch.Yaml

inductive YamlError where
  | forbiddenCharacter
  | tabInIndentation
  | unclosedQuote
  | badEscape
  | badDirective
  | badAnchor
  | badTag
  | badBlockHeader
  | misplacedIndicator
  | missingColon
  | unexpectedToken
  | undefinedTag
  | unknownAnchor
  | moreDocuments
  | wrongKind
  | badNumber
  | missingField (name : String)
  | repeatedField (name : String)
deriving DecidableEq, Repr

end LogWatch.Yaml
