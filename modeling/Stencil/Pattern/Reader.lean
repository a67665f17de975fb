import Stencil.Pattern.Escape

/-!
# Reading patterns

From a text to the pattern tree it spells, or to the fault that the text is refused for.  Faults
are found in the order of the text; what can only be judged of the whole pattern comes last.

Every recursive call is paid from a budget that the length of the text bounds, since each lexeme
opens at most one group and continues at most one row.
-/

namespace Stencil.Pattern

namespace Scan

/-! ## Leaves -/

/-- The tree of an escape outside sets. -/
def escapeNode (settings : Settings) : Escape → Node
  | .code code => .literal code settings.folding
  | .category kind negated => .set false [.category kind negated] .exact settings.ascii
  | .anchor a => .anchor a
  | .reference index width => .reference index width settings.folding

/-- The member of a set that an escape inside it stands for. -/
def escapeItem : Escape → SetItem
  | .code code => .range code code
  | .category kind negated => .category kind negated
  | .anchor _ => .range 0 0
  | .reference _ _ => .range 0 0

/-- One end of a range, or a lone member, of a set. -/
def setMember (lexeme : Text) (fuel : Nat) : Scan Escape :=
  match lexeme with
  | ['\\', c] => setEscape lexeme c fuel
  | [c] => return .code c.toNat
  | _ => return .code 0

/-- The members of a set up to its closing bracket.  `start` is the position of the opening one. -/
def setMembers (start : Nat) : Nat → List SetItem → Scan (List SetItem)
  | 0, items => return items
  | fuel + 1, items => do
    let lexeme ← take
    if lexeme.isEmpty then failAt .unterminatedSet start
    else if lexeme = [']'] ∧ !items.isEmpty then return items
    else
      let first ← setMember lexeme fuel
      if ← accept '-' then
        let second ← take
        if second.isEmpty then failAt .unterminatedSet start
        else if second = [']'] then
          return items ++ [escapeItem first, .range '-'.toNat '-'.toNat]
        else
          let last ← setMember second fuel
          let back := lexeme.length + 1 + second.length
          match first, last with
          | .code a, .code b =>
            if b < a then fail (.badRange lexeme second) back
            else setMembers start fuel (items ++ [.range a b])
          | _, _ => fail (.badRange lexeme second) back
      else setMembers start fuel (items ++ [escapeItem first])

/-- A bracketed set whose opening bracket has been taken. -/
def bracketSet (fuel : Nat) : Scan Node := do
  let start := (← tell) - 1
  let negated ← accept '^'
  let items ← setMembers start fuel []
  let settings := (← get).settings
  return .set negated items settings.folding settings.ascii

/-! ## Repetition -/

/-- The bound that counters must stay below. -/
def countLimit : Nat := 4294967295

/-- The bounds of a repetition in braces, or nothing where the braces are no repetition; then the
scanner is where it was.  `start` is the position after the opening brace. -/
def bracedBounds (start fuel : Nat) : Scan (Option (Nat × Option Nat)) := do
  let before ← get
  if (← peek) = ['}'] then return none
  else
    let low ← takeWhile Char.isDigit fuel
    let high ← if ← accept ',' then takeWhile Char.isDigit fuel else pure low
    if ← accept '}' then
      let least := numberIn 10 low
      let most := numberIn 10 high
      if countLimit ≤ least then throw .countTooLarge
      else if high.isEmpty then return some (least, none)
      else if countLimit ≤ most then throw .countTooLarge
      else if most < least then failAt .repeatBounds start
      else return some (least, some most)
    else
      set before
      return none

/-- Whether an item can be repeated: there is one, and it is neither a place nor a repetition. -/
def checkRepeatable (item : Option Node) (position : Nat) : Scan Node :=
  match item with
  | none => failAt .nothingToRepeat position
  | some (.anchor _) => failAt .nothingToRepeat position
  | some (.loop _ _ _ _) => failAt .multipleRepeat position
  | some node => return node

/-- The item under a repetition that has just been read, lazy before `?` and possessive before
`+`. -/
def repetition (item : Node) (least : Nat) (most : Option Nat) : Scan Node := do
  if ← accept '?' then return .loop .lazy least most item
  else if ← accept '+' then return .loop .possessive least most item
  else return .loop .greedy least most item

/-! ## Settings within a pattern -/

/-- Adds the setting of a letter, if the letter has one. -/
def addFlag? (s : Settings) : Char → Option Settings
  | 'i' => some { s with ignoreCase := true }
  | 'm' => some { s with multiline := true }
  | 's' => some { s with dotAll := true }
  | 'x' => some { s with verbose := true }
  | 'a' => some { s with ascii := true }
  | 'u' => some { s with unicode := true }
  | 'L' => some s
  | 't' => some s
  | _ => none

/-- A letter of any script. -/
def isLetter (c : Char) : Bool := Text.isAlphanumeric c && !Text.isDigit c

/-- The letters up to `)`, `-` or `:`, which is taken as well, when settings are switched on. -/
def flagsOn : Nat → Settings → Char → Scan (Settings × Char)
  | 0, s, c => return (s, c)
  | fuel + 1, s, c => do
    match addFlag? s c with
    | none => fail .missingFlagEnd 0
    | some s =>
      if c = 'L' then fail .localeFlag 0
      else if (c = 'a' ∨ c = 'u') ∧ s.ascii ∧ s.unicode then fail .incompatibleFlags 0
      else
        match ← take with
        | [] => fail .missingFlagEnd 0
        | [d] =>
          if d = ')' ∨ d = '-' ∨ d = ':' then return (s, d)
          else if (addFlag? s d).isSome then flagsOn fuel s d
          else fail (if isLetter d then .unknownFlag else .missingFlagEnd) 1
        | lexeme => fail .missingFlagEnd lexeme.length

/-- The letters up to `:`, which is taken as well, when settings are switched off. -/
def flagsOff : Nat → Settings → Char → Scan Settings
  | 0, s, _ => return s
  | fuel + 1, s, c => do
    match addFlag? s c with
    | none => fail .missingFlagColon 0
    | some s =>
      if c = 'a' ∨ c = 'u' ∨ c = 'L' then fail .typeFlagOff 0
      else
        match ← take with
        | [] => fail .missingFlagColon 0
        | [d] =>
          if d = ':' then return s
          else if (addFlag? s d).isSome then flagsOff fuel s d
          else fail (if isLetter d then .unknownFlag else .missingFlagColon) 1
        | lexeme => fail .missingFlagColon lexeme.length

/-- Whether two collections of settings have one in common. -/
def overlap (s t : Settings) : Bool :=
  (s.ignoreCase && t.ignoreCase) || (s.multiline && t.multiline) || (s.dotAll && t.dotAll) ||
  (s.verbose && t.verbose)

/-- Settings with some switched on and some off.  A choice of alphabet replaces the earlier one. -/
def switched (s on off : Settings) : Settings :=
  let chosen := on.ascii || on.unicode
  { ignoreCase := (s.ignoreCase || on.ignoreCase) && !off.ignoreCase
    multiline := (s.multiline || on.multiline) && !off.multiline
    dotAll := (s.dotAll || on.dotAll) && !off.dotAll
    verbose := (s.verbose || on.verbose) && !off.verbose
    ascii := if chosen then on.ascii else s.ascii
    unicode := if chosen then on.unicode else s.unicode }

/-- The settings that a group starts by switching, whose first letter has been taken: those of the
whole pattern (nothing is given back), or those on and off for the group alone. -/
def groupFlags (fuel : Nat) (c : Char) : Scan (Option (Settings × Settings)) := do
  let (on, closing) ← if c = '-' then pure ({}, '-') else flagsOn fuel {} c
  if closing = ')' then
    modify fun s =>
      { s with settings :=
        { ignoreCase := s.settings.ignoreCase || on.ignoreCase
          multiline := s.settings.multiline || on.multiline
          dotAll := s.settings.dotAll || on.dotAll
          verbose := s.settings.verbose || on.verbose
          ascii := s.settings.ascii || on.ascii
          unicode := s.settings.unicode || on.unicode } }
    return none
  else if closing = ':' then return some (on, {})
  else
    match ← take with
    | [] => fail .missingFlag 0
    | [d] =>
      if (addFlag? {} d).isSome then
        let off ← flagsOff fuel {} d
        if overlap on off then fail .flagOnAndOff 1 else return some (on, off)
      else fail (if isLetter d then .unknownFlag else .missingFlag) 1
    | lexeme => fail .missingFlag lexeme.length

/-! ## Names of groups -/

/-- Whether a text can name a group: letters, digits and underscores, without a leading digit. -/
def isName : Text → Bool
  | [] => false
  | c :: rest =>
    (isLetter c || c == '_') &&
      rest.all fun d => Text.isAlphanumeric d || d == '_'

/-- Refuses what cannot name a group. -/
def checkName (name : Text) : Scan Unit :=
  if isName name then return else fail (.badGroupName name) (name.length + 1)

/-- The number of the group that a conditional asks for. -/
def conditionGroup (name : Text) : Scan Nat := do
  if isName name then
    match (← get).names.lookup name with
    | some index => return index
    | none => fail (.unknownGroupName name) (name.length + 1)
  else if name.isEmpty ∨ !name.all Text.isDigit then
    fail (.badGroupName name) (name.length + 1)
  else
    let index := name.foldl (fun n c => 10 * n + (Text.digitValue? c).getD 0) 0
    if index = 0 then fail .badGroupNumber (name.length + 1)
    else if 1073741823 ≤ index then fail (.invalidReference index) (name.length + 1)
    else
      let position := (← tell) - name.length - 1
      modify fun s =>
        if (s.awaited.lookup index).isSome then s
        else { s with awaited := s.awaited ++ [(index, position)] }
      return index

/-! ## Rows, alternatives and groups -/

/-- The row of some items. -/
def rowOf : List Node → Node
  | [] => .empty
  | [node] => node
  | node :: rest => .seq node (rowOf rest)

/-- Skips a comment of a verbose pattern. -/
def skipLine : Nat → Scan Unit
  | 0 => return
  | fuel + 1 => do
    let lexeme ← take
    if lexeme.isEmpty ∨ lexeme = ['\n'] then return else skipLine fuel

/-- Skips a comment group, which opened at `start`. -/
def skipComment (start : Nat) : Nat → Scan Unit
  | 0 => return
  | fuel + 1 => do
    if (← peek).isEmpty then failAt .unterminatedComment start
    else if (← take) = [')'] then return
    else skipComment start fuel

/-- Takes the parenthesis that closes the group opened at `start`. -/
def closeParenthesis (start : Nat) : Scan Unit := do
  if ← accept ')' then return else failAt .unterminatedGroup start

/-- What a group is found to be once its opening has been read. -/
inductive Opening where
  | nothing
  | item (node : Node)
  | plain (settings : Settings)
  | atomic
  | capture (name : Option Text)
  | look (ahead negated : Bool)
  | conditional

/-- A back reference by name. -/
def namedReference (name : Text) : Scan Opening := do
  checkName name
  match (← get).names.lookup name with
  | none => fail (.unknownGroupName name) (name.length + 1)
  | some index =>
    match ← closedWidth? index with
    | none => fail .openReference (name.length + 1)
    | some width =>
      checkBehind index
      return .item (.reference index width (← get).settings.folding)

/-- A named group or a reference to one; the letter `P` has been taken. -/
def namedOpening (fuel : Nat) : Scan Opening := do
  if ← accept '<' then
    let name ← takeName '>' "group name" fuel
    checkName name
    return .capture (some name)
  else if ← accept '=' then
    let name ← takeName ')' "group name" fuel
    namedReference name
  else
    let lexeme ← take
    if lexeme.isEmpty then fail .endOfPattern 0
    else fail (.unknownExtension ('P' :: lexeme)) (lexeme.length + 2)

/-- A look-behind; the character `<` has been taken. -/
def behindOpening : Scan Opening := do
  let lexeme ← take
  if lexeme.isEmpty then fail .endOfPattern 0
  else if lexeme = ['='] then return .look false false
  else if lexeme = ['!'] then return .look false true
  else fail (.unknownExtension ('<' :: lexeme)) (lexeme.length + 2)

/-- What follows the question mark of a group opened at `start`. -/
def extension (mayFlag : Bool) (start fuel : Nat) : Scan Opening := do
  let settings := (← get).settings
  match ← take with
  | [] => fail .endOfPattern 0
  | [c] =>
    if c = 'P' then namedOpening fuel
    else if c = ':' then return .plain settings
    else if c = '#' then
      skipComment start fuel
      return .nothing
    else if c = '=' then return .look true false
    else if c = '!' then return .look true true
    else if c = '<' then behindOpening
    else if c = '(' then return .conditional
    else if c = '>' then return .atomic
    else if c = '-' ∨ (addFlag? {} c).isSome then
      match ← groupFlags fuel c with
      | some (on, off) => return .plain (switched settings on off)
      | none => if mayFlag then return .nothing else failAt .lateFlags start
    else fail (.unknownExtension [c]) 2
  | lexeme => fail (.unknownExtension lexeme) (lexeme.length + 1)

mutual

/-- Alternatives up to the end or a closing parenthesis. -/
def alternatives (outermost : Bool) : Nat → Scan Node
  | 0 => return .empty
  | fuel + 1 => do
    let first ← row outermost fuel []
    moreAlternatives first fuel

/-- The alternatives after the first one. -/
def moreAlternatives (node : Node) : Nat → Scan Node
  | 0 => return node
  | fuel + 1 => do
    if ← accept '|' then
      let second ← row false fuel []
      let rest ← moreAlternatives second fuel
      return .alt node rest
    else return node

/-- The items of a row; `items` are those read so far, last first.  Only the outermost first row
may switch the settings of the whole pattern, and only before its first item. -/
def row (outermost : Bool) : Nat → List Node → Scan Node
  | 0, items => return rowOf items.reverse
  | fuel + 1, items => do
    let settings := (← get).settings
    match ← peek with
    | [] => return rowOf items.reverse
    | ['\\', c] =>
      let lexeme ← take
      let escape ← outerEscape lexeme c fuel
      row outermost fuel (escapeNode settings escape :: items)
    | [c] =>
      if c = '|' ∨ c = ')' then return rowOf items.reverse
      else
        advance
        let here ← tell
        if settings.verbose ∧ (c = ' ' ∨ decide (9 ≤ c.toNat ∧ c.toNat ≤ 13)) then
          row outermost fuel items
        else if settings.verbose ∧ c = '#' then
          skipLine fuel
          row outermost fuel items
        else if c = '[' then
          let node ← bracketSet fuel
          row outermost fuel (node :: items)
        else if c = '.' then row outermost fuel (.any settings.dotAll :: items)
        else if c = '^' then
          let a := if settings.multiline then Anchor.lineStart else .textStart
          row outermost fuel (.anchor a :: items)
        else if c = '$' then
          row outermost fuel (.anchor (.lineEnd settings.multiline) :: items)
        else if c = '(' then
          let found ← group (outermost && items.isEmpty) (here - 1) fuel
          row outermost fuel (match found with
            | some node => node :: items
            | none => items)
        else
          let bounds ←
            if c = '?' then pure (some (0, some 1))
            else if c = '*' then pure (some (0, none))
            else if c = '+' then pure (some (1, none))
            else if c = '{' then bracedBounds here fuel
            else pure none
          match bounds with
          | none => row outermost fuel (.literal c.toNat settings.folding :: items)
          | some (least, most) =>
            let item ← checkRepeatable items.head? (here - 1)
            let node ← repetition item least most
            row outermost fuel (node :: items.tail)
    | _ => return rowOf items.reverse

/-- A group whose opening parenthesis, at `start`, has been taken; nothing for a comment or a
switch of settings. -/
def group (mayFlag : Bool) (start : Nat) : Nat → Scan (Option Node)
  | 0 => return none
  | fuel + 1 => do
    let outer ← get
    let opening ← if ← accept '?' then extension mayFlag start fuel else pure (.capture none)
    match opening with
    | .nothing => return none
    | .item node => return some node
    | .plain inner =>
      modify fun s => { s with settings := inner }
      let body ← alternatives false fuel
      modify fun s => { s with settings := outer.settings }
      closeParenthesis start
      return some (.group body)
    | .atomic =>
      let body ← alternatives false fuel
      closeParenthesis start
      return some (.atomic body)
    | .capture name =>
      let index ← openGroup name
      let body ← alternatives false fuel
      closeParenthesis start
      closeGroup index body.width
      return some (.capture index body)
    | .look ahead negated =>
      if !ahead ∧ outer.behindLimit.isNone then
        let count ← groupCount
        modify fun s => { s with behindLimit := some count }
      let body ← alternatives false fuel
      if !ahead then modify fun s => { s with behindLimit := outer.behindLimit }
      closeParenthesis start
      return some (.look ahead negated body)
    | .conditional =>
      let name ← takeName ')' "group name" fuel
      let index ← conditionGroup name
      checkBehind index
      let yes ← row false fuel []
      let no ← if ← accept '|' then row false fuel [] else pure .empty
      if (← peek) = ['|'] then fail .tooManyBranches 0
      closeParenthesis start
      return some (.conditional index yes no)

end

/-- A whole pattern; the scanner stands before its first lexeme. -/
def whole (fuel : Nat) : Scan Node := do
  advance
  let node ← alternatives true fuel
  let s ← get
  if s.settings.ascii ∧ s.settings.unicode then throw .contradictorySettings
  if !s.lexeme.isEmpty then fail .unbalancedParenthesis 0
  match s.awaited.find? fun entry => decide (s.widths.length < entry.1) with
  | some (index, position) => failAt (.invalidReference index) position
  | none =>
    if node.behindsFixed then return node else throw (.malformed .behindNotFixed none)

end Scan

/-! ## The reader -/

/-- The pattern that a text spells. -/
def read (t : Text) : Except Fault Node :=
  match (Scan.whole (4 * t.length + 16)).run { lexeme := [], rest := t, position := 0 } with
  | .ok node _ => .ok node
  | .error fault _ => .error fault

end Stencil.Pattern
