import Stencil.Text.Quoted

/-!
# Faults of patterns

Why a text is not a pattern: a cause and, for most causes, the position of the offending
character.  In a text of several lines the wording also gives line and column.
-/

namespace Stencil.Pattern

/-! ## Causes -/

/-- The causes. -/
inductive Cause where
  | trailingBackslash
  | unterminatedSet
  | unterminatedGroup
  | unterminatedComment
  | unbalancedParenthesis
  | nothingToRepeat
  | multipleRepeat
  | repeatBounds
  | badRange (first last : Text)
  | badEscape (escape : Text)
  | incompleteEscape (escape : Text)
  | octalTooLarge (escape : Text)
  | missingBrace
  | undefinedCharacter (name : Text)
  | invalidReference (group : Nat)
  | openReference
  | behindReference
  | badGroupNumber
  | badGroupName (name : Text)
  | unknownGroupName (name : Text)
  | redefinedGroup (name : Text) (group earlier : Nat)
  | missingName (what : String)
  | unterminatedName (closing : Char)
  | endOfPattern
  | unknownExtension (spelled : Text)
  | tooManyBranches
  | lateFlags
  | unknownFlag
  | missingFlag
  | missingFlagEnd
  | missingFlagColon
  | localeFlag
  | incompatibleFlags
  | typeFlagOff
  | flagOnAndOff
  | behindNotFixed
  deriving DecidableEq, Repr

/-- The wording of a cause. -/
def Cause.message : Cause → String
  | .trailingBackslash => "bad escape (end of pattern)"
  | .unterminatedSet => "unterminated character set"
  | .unterminatedGroup => "missing ), unterminated subpattern"
  | .unterminatedComment => "missing ), unterminated comment"
  | .unbalancedParenthesis => "unbalanced parenthesis"
  | .nothingToRepeat => "nothing to repeat"
  | .multipleRepeat => "multiple repeat"
  | .repeatBounds => "min repeat greater than max repeat"
  | .badRange first last =>
    let first := String.ofList first
    let last := String.ofList last
    s!"bad character range {first}-{last}"
  | .badEscape escape => "bad escape " ++ String.ofList escape
  | .incompleteEscape escape => "incomplete escape " ++ String.ofList escape
  | .octalTooLarge escape =>
    let escape := String.ofList escape
    s!"octal escape value {escape} outside of range 0-0o377"
  | .missingBrace => "missing \x7b"
  | .undefinedCharacter name => "undefined character name " ++ String.ofList (Text.quoted name)
  | .invalidReference group => s!"invalid group reference {group}"
  | .openReference => "cannot refer to an open group"
  | .behindReference => "cannot refer to group defined in the same lookbehind subpattern"
  | .badGroupNumber => "bad group number"
  | .badGroupName name => "bad character in group name " ++ String.ofList (Text.quoted name)
  | .unknownGroupName name => "unknown group name " ++ String.ofList (Text.quoted name)
  | .redefinedGroup name group earlier =>
    let name := String.ofList (Text.quoted name)
    s!"redefinition of group name {name} as group {group}; was group {earlier}"
  | .missingName what => s!"missing {what}"
  | .unterminatedName closing => s!"missing {closing}, unterminated name"
  | .endOfPattern => "unexpected end of pattern"
  | .unknownExtension spelled => "unknown extension ?" ++ String.ofList spelled
  | .tooManyBranches => "conditional backref with more than two branches"
  | .lateFlags => "global flags not at the start of the expression"
  | .unknownFlag => "unknown flag"
  | .missingFlag => "missing flag"
  | .missingFlagEnd => "missing -, : or )"
  | .missingFlagColon => "missing :"
  | .localeFlag => "bad inline flags: cannot use 'L' flag with a str pattern"
  | .incompatibleFlags => "bad inline flags: flags 'a', 'u' and 'L' are incompatible"
  | .typeFlagOff => "bad inline flags: cannot turn off flags 'a', 'u' and 'L'"
  | .flagOnAndOff => "bad inline flags: flag turned on and off"
  | .behindNotFixed => "look-behind requires fixed-width pattern"

/-! ## Faults -/

/-- Why a text is not a pattern.  Repetition counts past the limit of counters, and settings that
contradict each other in separate groups, are faults of a kind of their own. -/
inductive Fault where
  | malformed (cause : Cause) (position : Option Nat)
  | countTooLarge
  | contradictorySettings
  deriving DecidableEq, Repr

/-- Line and column of a position, counted from one. -/
def lineAndColumn (pattern : Text) (position : Nat) : Nat × Nat :=
  let before := pattern.take position
  (before.count '\n' + 1, (before.reverse.takeWhile (· != '\n')).length + 1)

/-- The wording of a fault found in a pattern. -/
def Fault.message (pattern : Text) : Fault → String
  | .malformed cause none => cause.message
  | .malformed cause (some position) =>
    let text := cause.message
    let (line, column) := lineAndColumn pattern position
    if pattern.contains '\n' then s!"{text} at position {position} (line {line}, column {column})"
    else s!"{text} at position {position}"
  | .countTooLarge => "the repetition number is too large"
  | .contradictorySettings => "ASCII and UNICODE flags are incompatible"

end Stencil.Pattern
