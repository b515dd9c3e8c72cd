import ImportOrder.Regex.Expr
import ImportOrder.Text.Quoted

/-!
Why a pattern is not compiled. Either it is no regular expression, and then the error says why and
where, or the compiler breaks down on it.
-/

namespace ImportOrder.Regex

inductive Cause where
  | danglingEscape
  | badEscape (escape : String)
  | incompleteEscape (escape : String)
  | octalTooLarge (escape : String)
  | missingBrace
  | missing (what : String)
  | unterminatedName (terminator : Char)
  | undefinedCharacter (name : String)
  | openGroupReference
  | lookbehindReference
  | invalidReference (group : Nat)
  | badGroupNumber
  | badGroupName (name : String)
  | unknownGroup (name : String)
  | redefinedGroup (name : String) (index earlier : Nat)
  | unterminatedSet
  | badRange (first last : String)
  | nothingToRepeat
  | multipleRepeat
  | minGreaterThanMax
  | unexpectedEnd
  | unknownExtension (start : String)
  | unterminatedComment
  | unterminatedGroup
  | tooManyBranches
  | lateGlobalFlags
  | badFlags (why : String)
  | unknownFlag
  | missingFlag (what : String)
  | unbalancedParenthesis
  | lookbehindTooWide
  | variableLookbehind
  | templateLoop (greed : Greed)

def Greed.operator : Greed → String
  | .greedy => "MAX_REPEAT"
  | .lazy => "MIN_REPEAT"
  | .possessive => "POSSESSIVE_REPEAT"

def Cause.message : Cause → String
  | .danglingEscape => "bad escape (end of pattern)"
  | .badEscape e => "bad escape " ++ e
  | .incompleteEscape e => "incomplete escape " ++ e
  | .octalTooLarge e => "octal escape value " ++ e ++ " outside of range 0-0o377"
  | .missingBrace => "missing \x7b"
  | .missing what => "missing " ++ what
  | .unterminatedName c => "missing " ++ String.ofList [c] ++ ", unterminated name"
  | .undefinedCharacter name => "undefined character name " ++ Text.quoted name
  | .openGroupReference => "cannot refer to an open group"
  | .lookbehindReference => "cannot refer to group defined in the same lookbehind subpattern"
  | .invalidReference n => "invalid group reference " ++ toString n
  | .badGroupNumber => "bad group number"
  | .badGroupName name => "bad character in group name " ++ Text.quoted name
  | .unknownGroup name => "unknown group name " ++ Text.quoted name
  | .redefinedGroup name index earlier =>
      "redefinition of group name " ++ Text.quoted name ++ " as group " ++ toString index ++
        "; was group " ++ toString earlier
  | .unterminatedSet => "unterminated character set"
  | .badRange first last => "bad character range " ++ first ++ "-" ++ last
  | .nothingToRepeat => "nothing to repeat"
  | .multipleRepeat => "multiple repeat"
  | .minGreaterThanMax => "min repeat greater than max repeat"
  | .unexpectedEnd => "unexpected end of pattern"
  | .unknownExtension start => "unknown extension " ++ start
  | .unterminatedComment => "missing ), unterminated comment"
  | .unterminatedGroup => "missing ), unterminated subpattern"
  | .tooManyBranches => "conditional backref with more than two branches"
  | .lateGlobalFlags => "global flags not at the start of the expression"
  | .badFlags why => "bad inline flags: " ++ why
  | .unknownFlag => "unknown flag"
  | .missingFlag what => "missing " ++ what
  | .unbalancedParenthesis => "unbalanced parenthesis"
  | .lookbehindTooWide => "looks too much behind"
  | .variableLookbehind => "look-behind requires fixed-width pattern"
  | .templateLoop greed => "internal: unsupported template operator " ++ greed.operator

/-- A cause with its place in the pattern; faults of the whole expression have none. -/
structure Error where
  cause : Cause
  position : Option Nat

/-- The place is also given by line and column when the pattern has several lines. -/
def Error.message (pattern : List Char) (e : Error) : String :=
  match e.position with
  | none => e.cause.message
  | some pos =>
    let lead := pattern.take pos
    let line := lead.count '\n' + 1
    let column := (lead.reverse.takeWhile (· != '\n')).length + 1
    e.cause.message ++ " at position " ++ toString pos ++
      if pattern.contains '\n' then
        " (line " ++ toString line ++ ", column " ++ toString column ++ ")"
      else ""

/-- What a compiler breaks down on. -/
inductive Breakdown where
  | tooManyRepetitions
  | numeralTooLong
  /-- The whole pattern is to be read by ASCII and by Unicode. -/
  | clashingFlags
  | nestedTooDeep

inductive Failure where
  | error (error : Error)
  | breakdown (breakdown : Breakdown)

end ImportOrder.Regex
