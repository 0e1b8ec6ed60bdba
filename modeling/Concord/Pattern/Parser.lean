import Concord.Pattern.Expr
import Concord.Unicode.CaseFold
import Concord.Text.Blank

/-!
Reading a regular expression. Flags hold from where they are set to the end of the group around
them. A pattern is refused if its brackets, counts, names, escapes or classes are not well formed,
if it nests too deep, and if it could match a part of a character.
-/
namespace Concord.Pattern

open Concord.Unicode Concord.Text

structure Flags where
  ignoreCase : Bool := false
  multiLine : Bool := false
  dotAll : Bool := false
  swapGreed : Bool := false
  unicode : Bool := true
  carriage : Bool := false
  ignoreSpace : Bool := false
  deriving DecidableEq, Repr

/-- What is left of the pattern, the flags in force and the group names in use. -/
structure State where
  rest : List Char
  flags : Flags
  names : List (List Char)

/-- A reader that may refuse. -/
abbrev Parser := StateT State Option

/-- An expression, how deep it nests, and whether it only sets flags. -/
structure Item where
  expr : Expr
  depth : Nat := 0
  setsFlags : Bool := false

def refuse {α : Type} : Parser α :=
  fun _ => none

def peek : Parser (Option Char) := do
  return (← get).rest.head?

def advance : Parser Unit :=
  modify fun s => { s with rest := s.rest.tail }

/-- With the flag `x`, blanks and comments do not count. -/
def dropSpace : Nat → List Char → List Char
  | 0, text => text
  | fuel + 1, text =>
    match text with
    | [] => []
    | c :: rest =>
      if isBlank c then dropSpace fuel rest
      else if c = '#' then dropSpace fuel (rest.dropWhile (· ≠ '\n'))
      else c :: rest

def skipSpace : Parser Unit :=
  modify fun s =>
    if s.flags.ignoreSpace then { s with rest := dropSpace (s.rest.length + 1) s.rest } else s

/-- Steps on, then over space. -/
def step : Parser Unit := do
  advance
  skipSpace

/-- Steps over `text` if it is next. -/
def eat (text : String) : Parser Bool := do
  let s ← get
  if text.toList.isPrefixOf s.rest then
    set { s with rest := s.rest.drop text.length }
    return true
  else return false

def isHex (c : Char) : Bool :=
  c.isDigit || 'a' ≤ c && c ≤ 'f' || 'A' ≤ c && c ≤ 'F'

/-- The character with a code written in hexadecimal. -/
def hexCharacter? (digits : List Char) : Option Char :=
  let code := hexNumber (digits.map Char.toUpper)
  if digits.isEmpty || digits.length > 8 && code > maxCode then none
  else if code > maxCode || 0xD800 ≤ code && code ≤ 0xDFFF then none
  else some (Char.ofNat code)

/-- Reads characters that satisfy `p`, each followed by space. -/
def takeRun (p : Char → Bool) : Nat → Parser (List Char)
  | 0 => return []
  | fuel + 1 => do
    match ← peek with
    | none => return []
    | some c =>
      if p c then
        step
        return c :: (← takeRun p fuel)
      else return []

/-- A literal character; `byte` tells that it was written by two hexadecimal digits. -/
structure Literal where
  char : Char
  byte : Bool := false

/-- What an escape, a point or a plain character stands for. -/
inductive Primitive where
  | literal (literal : Literal)
  | set (set : CharSet)
  | dot
  | look (condition : Look)

/-- `\x`, `\u` and `\U` behind the letter: a fixed number of digits or any number in brackets. -/
def hexEscape (kind : Char) : Parser Literal := do
  step
  match ← peek with
  | none => refuse
  | some '\x7b' =>
    step
    let digits ← takeRun isHex ((← get).rest.length)
    match ← peek, hexCharacter? digits with
    | some '\x7d', some char => do
      step
      return { char := char }
    | _, _ => refuse
  | some _ =>
    let count := if kind = 'x' then 2 else if kind = 'u' then 4 else 8
    let digits ← takeRun isHex count
    match digits.length == count, hexCharacter? digits with
    | true, some char => return { char := char, byte := kind = 'x' }
    | _, _ => refuse

/-- Cuts a text in front of the first occurrence of `mark`. -/
def cutAt? (mark : List Char) : List Char → Option (List Char × List Char)
  | [] => none
  | c :: rest =>
    if mark.isPrefixOf (c :: rest) then some ([], (c :: rest).drop mark.length)
    else (cutAt? mark rest).map fun (front, back) => (c :: front, back)

/-- The set of a `\p` or `\P` behind the letter, and whether the name asks for the others. -/
def propertyEscape : Parser (CharSet × Bool) := do
  step
  match ← peek with
  | none => refuse
  | some '\\' => refuse
  | some '\x7b' =>
    step
    let name ← takeRun (· ≠ '\x7d') ((← get).rest.length)
    match ← peek with
    | none => refuse
    | some _ =>
      advance
      let asked :=
        match cutAt? ['!', '='] name, cutAt? [':'] name, cutAt? ['='] name with
        | some (property, value), _, _ => (valued? property value).map (·, true)
        | none, some (property, value), _ => (valued? property value).map (·, false)
        | none, none, some (property, value) => (valued? property value).map (·, false)
        | none, none, none => (named? name).map (·, false)
      match asked with
      | some found => return found
      | none => refuse
  | some c =>
    step
    match category? (String.ofList (normalizeName [c])) with
    | some set => return (set, false)
    | none => refuse

/-- The case-insensitive form of a set under the flags. -/
def fold (flags : Flags) (set : CharSet) : CharSet :=
  if !flags.ignoreCase then set
  else if flags.unicode then set.foldCase
  else
    CharSet.ofRanges <| set.ranges ++ (List.range 26).flatMap fun i =>
      let upper := 'A'.toNat + i
      let lower := 'a'.toNat + i
      if set.containsCode upper || set.containsCode lower then [(upper, upper), (lower, lower)]
      else []

/-- The complement under the flags: without Unicode, of bytes. -/
def negate (flags : Flags) (negated : Bool) (set : CharSet) : CharSet :=
  if negated then set.complementUpTo (if flags.unicode then maxCode else 0xFF) else set

def asciiDigits : CharSet := CharSet.ofText "30-39"

def asciiBlanks : CharSet := CharSet.ofText "9-D 20"

def asciiWord : CharSet := CharSet.ofText "30-39 41-5A 5F 61-7A"

/-- The set of `\d`, `\s` or `\w`, or of the others for an upper-case letter. -/
def letterSet (flags : Flags) (letter : Char) : CharSet :=
  let set :=
    match letter.toLower with
    | 'd' => if flags.unicode then decimalDigits else asciiDigits
    | 's' => if flags.unicode then whiteSpace else asciiBlanks
    | _ => if flags.unicode then wordCharacters else asciiWord
  negate flags letter.isUpper set

def isMeta (c : Char) : Bool :=
  "\\.+*?()|[]\x7b\x7d^$#&-~".toList.contains c

/-- The name in the brackets behind `\b`; `none` leaves the brackets to be read as a count. -/
def boundaryName : Parser (Option Look) := do
  let s ← get
  step
  let isNameChar (c : Char) : Bool := c.isAlpha || c = '-'
  match ← peek with
  | none => refuse
  | some c =>
    if !isNameChar c then
      set s
      return none
    else
      let name ← takeRun isNameChar s.rest.length
      if (← peek) = some '\x7d' then
        advance
        match String.ofList name with
        | "start" => return some (.wordStart s.flags.unicode)
        | "end" => return some (.wordStop s.flags.unicode)
        | "start-half" => return some (.noWordBefore s.flags.unicode)
        | "end-half" => return some (.noWordAfter s.flags.unicode)
        | _ => refuse
      else refuse

/-- An escape, from its back slash. -/
def escape : Parser Primitive := do
  advance
  let flags := (← get).flags
  match ← peek with
  | none => refuse
  | some c =>
    if c.isDigit then refuse
    else if c = 'x' || c = 'u' || c = 'U' then return .literal (← hexEscape c)
    else if c = 'p' || c = 'P' then
      let (set, others) ← propertyEscape
      if flags.unicode then
        let set := if others then set.complement else set
        return .set (negate flags (c = 'P') (fold flags set))
      else refuse
    else if "dswDSW".toList.contains c then
      advance
      return .set (letterSet flags c)
    else
      advance
      if isMeta c then return .literal { char := c }
      else if c.toNat < 0x80 && !c.isAlphanum && c ≠ '<' && c ≠ '>' then
        return .literal { char := c }
      else
        match c with
        | 'a' => return .literal { char := '\x07' }
        | 'f' => return .literal { char := '\x0c' }
        | 't' => return .literal { char := '\t' }
        | 'n' => return .literal { char := '\n' }
        | 'r' => return .literal { char := '\r' }
        | 'v' => return .literal { char := '\x0b' }
        | 'A' => return .look .start
        | 'z' => return .look .stop
        | 'B' => return .look (.noBoundary flags.unicode)
        | '<' => return .look (.wordStart flags.unicode)
        | '>' => return .look (.wordStop flags.unicode)
        | 'b' =>
          if (← peek) = some '\x7b' then
            return .look ((← boundaryName).getD (.boundary flags.unicode))
          else return .look (.boundary flags.unicode)
        | _ => refuse

/-! Classes -/

/-- A set under construction and how deep it nests. -/
structure ClassItem where
  set : CharSet
  depth : Nat := 0

/-- The code of a literal in a class. Without Unicode only ASCII and bytes are allowed. -/
def literalCode (flags : Flags) (l : Literal) : Parser Nat :=
  if flags.unicode || l.char.toNat < 0x80 || l.byte then return l.char.toNat else refuse

def classPrimitive : Parser Primitive := do
  match ← peek with
  | none => refuse
  | some '\\' => escape
  | some c =>
    advance
    return .literal { char := c }

/-- The next character but for space. -/
def peekBehind : Parser (Option Char) := do
  let s ← get
  let rest := if s.flags.ignoreSpace then dropSpace s.rest.length s.rest.tail else s.rest.tail
  return rest.head?

/-- A literal, a range or an escaped set of a class. -/
def classRange : Parser ClassItem := do
  let flags := (← get).flags
  let first ← classPrimitive
  skipSpace
  let next ← peek
  let behind ← peekBehind
  if next.isNone then refuse
  else if next ≠ some '-' || behind = some ']' || behind = some '-' then
    match first with
    | .literal l => return { set := CharSet.single (← literalCode flags l) }
    | .set set => return { set := set }
    | _ => refuse
  else
    step
    let second ← classPrimitive
    match first, second with
    | .literal low, .literal high =>
      let low ← literalCode flags low
      let high ← literalCode flags high
      if low ≤ high then return { set := CharSet.range low high } else refuse
    | _, _ => refuse

def asciiClass? (name : String) : Option CharSet :=
  match name with
  | "alnum" => some (CharSet.ofText "30-39 41-5A 61-7A")
  | "alpha" => some (CharSet.ofText "41-5A 61-7A")
  | "ascii" => some (CharSet.ofText "0-7F")
  | "blank" => some (CharSet.ofText "9 20")
  | "cntrl" => some (CharSet.ofText "0-1F 7F")
  | "digit" => some asciiDigits
  | "graph" => some (CharSet.ofText "21-7E")
  | "lower" => some (CharSet.ofText "61-7A")
  | "print" => some (CharSet.ofText "20-7E")
  | "punct" => some (CharSet.ofText "21-2F 3A-40 5B-60 7B-7E")
  | "space" => some asciiBlanks
  | "upper" => some (CharSet.ofText "41-5A")
  | "word" => some asciiWord
  | "xdigit" => some (CharSet.ofText "30-39 41-46 61-66")
  | _ => none

/-- A named class such as `[:alpha:]` in a class, if one is next. -/
def namedClass? : Parser (Option ClassItem) := do
  let s ← get
  match s.rest with
  | '[' :: ':' :: rest =>
    let (negated, rest) :=
      match rest with
      | '^' :: rest => (true, rest)
      | rest => (false, rest)
    match asciiClass? (String.ofList (rest.takeWhile (· ≠ ':'))), rest.dropWhile (· ≠ ':') with
    | some found, ':' :: ']' :: rest =>
      set { s with rest := rest }
      return some { set := negate s.flags negated (fold s.flags found) }
    | _, _ => return none
  | _ => return none

inductive ClassOperator where
  | intersection
  | difference
  | symmetricDifference

def ClassOperator.apply : ClassOperator → CharSet → CharSet → CharSet
  | intersection => CharSet.inter
  | difference => CharSet.diff
  | symmetricDifference => CharSet.symmDiff

/-- The items of a class as one. -/
def classUnion (items : List ClassItem) : ClassItem :=
  let depth := (items.map ClassItem.depth).foldl max 0
  { set := CharSet.unions (items.map ClassItem.set)
    depth := if items.length > 1 then depth + 1 else depth }

/-- What stands left of an operator, with the operator. -/
def classCombine (flags : Flags) (left : Option (ClassItem × ClassOperator)) (right : ClassItem) :
    ClassItem :=
  match left with
  | none => right
  | some (left, operator) =>
    { set := operator.apply (fold flags left.set) (fold flags right.set)
      depth := max left.depth right.depth + 1 }

/-- The opening of a class behind its bracket: whether it is negated, and the literals `-` and `]`
that may stand first. -/
def classOpening : Parser (Bool × List ClassItem) := do
  step
  let negated := (← peek) = some '^'
  if negated then step
  let dashes ← takeRun (· = '-') ((← get).rest.length)
  let items := dashes.map fun c => { set := CharSet.single c.toNat : ClassItem }
  match ← peek with
  | none => refuse
  | some c =>
    if c = ']' && items.isEmpty then
      step
      if (← peek).isNone then refuse else return (negated, [{ set := CharSet.single c.toNat }])
    else return (negated, items)

/-- The rest of a class, through its closing bracket. -/
def classBody : Nat → Bool → Option (ClassItem × ClassOperator) → List ClassItem → Parser ClassItem
  | 0, _, _, _ => refuse
  | fuel + 1, negated, left, items => do
    skipSpace
    let s ← get
    let operate (operator : ClassOperator) : Parser ClassItem := do
      advance
      advance
      classBody fuel negated (some (classCombine s.flags left (classUnion items), operator)) []
    match s.rest with
    | [] => refuse
    | ']' :: _ =>
      advance
      let whole := classCombine s.flags left (classUnion items)
      return { set := negate s.flags negated (fold s.flags whole.set), depth := whole.depth + 1 }
    | '&' :: '&' :: _ => operate .intersection
    | '-' :: '-' :: _ => operate .difference
    | '~' :: '~' :: _ => operate .symmetricDifference
    | '[' :: _ =>
      match ← namedClass? with
      | some item => classBody fuel negated left (items ++ [item])
      | none => do
        let (innerNegated, innerItems) ← classOpening
        let inner ← classBody fuel innerNegated none innerItems
        classBody fuel negated left (items ++ [inner])
    | _ => do
      let item ← classRange
      classBody fuel negated left (items ++ [item])

/-- A class, from its bracket. -/
def bracketed : Parser ClassItem := do
  let fuel := (← get).rest.length + 1
  let (negated, items) ← classOpening
  classBody fuel negated none items

/-! Expressions -/

/-- A set as an expression. Without Unicode a set of bytes must keep to ASCII. -/
def setItem (flags : Flags) (set : CharSet) (depth : Nat) : Parser Item :=
  if flags.unicode || set.within 0x7F then return { expr := .chars set, depth := depth } else refuse

def primitiveItem (primitive : Primitive) : Parser Item := do
  let flags := (← get).flags
  match primitive with
  | .literal l =>
    if !flags.unicode && l.byte && l.char.toNat > 0x7F then refuse
    else return { expr := .chars (fold flags (CharSet.single l.char.toNat)) }
  | .set set => setItem flags set 0
  | .dot =>
    if !flags.unicode then refuse
    else if flags.dotAll then return { expr := .chars CharSet.full }
    else
      let breaks := if flags.carriage then CharSet.ofText "A D" else CharSet.single 0x0A
      return { expr := .chars breaks.complement }
  | .look condition => return { expr := .look condition }

/-- A sequence of items, the last one first. -/
def sequence : List Item → Item
  | [] => { expr := .empty }
  | [item] => item
  | items =>
    { expr := items.foldl (fun later item => .concat item.expr later) .empty
      depth := (items.map Item.depth).foldl max 0 + 1 }

/-- Alternatives, the last one first. -/
def alternatives (last : Item) : List Item → Item
  | [] => last
  | earlier =>
    { expr := earlier.foldl (fun later item => .either item.expr later) last.expr
      depth := ((last :: earlier).map Item.depth).foldl max 0 + 1 }

def setFlag (flags : Flags) (letter : Char) (value : Bool) : Option Flags :=
  match letter with
  | 'i' => some { flags with ignoreCase := value }
  | 'm' => some { flags with multiLine := value }
  | 's' => some { flags with dotAll := value }
  | 'U' => some { flags with swapGreed := value }
  | 'u' => some { flags with unicode := value }
  | 'R' => some { flags with carriage := value }
  | 'x' => some { flags with ignoreSpace := value }
  | _ => none

/-- Flag letters up to `:` or `)`: the flags they give and the letters. -/
def flagLetters : Nat → Flags → List Char → Parser (Flags × List Char)
  | 0, _, _ => refuse
  | fuel + 1, flags, seen => do
    match ← peek with
    | none => refuse
    | some c =>
      if c = ':' || c = ')' then
        if seen.head? = some '-' then refuse else return (flags, seen)
      else if seen.contains c then refuse
      else if c = '-' then
        advance
        flagLetters fuel flags ('-' :: seen)
      else
        match setFlag flags c (!seen.contains '-') with
        | none => refuse
        | some flags =>
          advance
          flagLetters fuel flags (c :: seen)

/-- The name of a group, through its `>`. -/
def groupName : Parser Unit := do
  let s ← get
  let name := s.rest.takeWhile (· ≠ '>')
  let isAlphabetic (c : Char) : Bool := alphabetic.contains c
  let isNumeric (c : Char) : Bool := (leaves ["Nd", "Nl", "No"]).contains c
  let startsWell := name.head?.any fun c => c = '_' || isAlphabetic c
  let goesOnWell := name.tail.all fun c =>
    c = '_' || c = '.' || c = '[' || c = ']' || isAlphabetic c || isNumeric c
  if startsWell && goesOnWell && name.length < s.rest.length && !s.names.contains name then
    set { s with rest := s.rest.drop (name.length + 1), names := name :: s.names }
  else refuse

/-- What an opening parenthesis starts: flags for what follows, or a group with flags of its own. -/
inductive Opening where
  | flags (flags : Flags)
  | group (flags : Flags) (captures : Bool)

/-- The opening of a group, from its parenthesis. -/
def opening : Parser Opening := do
  step
  let flags := (← get).flags
  let looks (text : String) : Parser Bool := return text.toList.isPrefixOf (← get).rest
  if (← looks "?=") || (← looks "?!") || (← looks "?<=") || (← looks "?<!") then refuse
  else if ← eat "?P<" then
    groupName
    return .group flags true
  else if ← eat "?<" then
    groupName
    return .group flags true
  else if ← eat "?" then
    let (changed, seen) ← flagLetters ((← get).rest.length + 1) flags []
    let closes := (← peek) = some ')'
    advance
    if closes then if seen.isEmpty then refuse else return .flags changed
    else return .group changed false
  else return .group flags true

/-- A decimal number with blanks around it, in the range of a count. -/
def count? : Parser (Option Nat) := do
  let dropBlanks : Parser Unit := modify fun s => { s with rest := s.rest.dropWhile isBlank }
  dropBlanks
  let digits ← takeRun Char.isDigit ((← get).rest.length)
  dropBlanks
  skipSpace
  if digits.isEmpty then return none
  else
    let value := digits.foldl (fun n c => n * 10 + (c.toNat - '0'.toNat)) 0
    if value < 0x100000000 then return some value else refuse

/-- The counts of a repetition, from its bracket. -/
def counts : Parser (Nat × Option Nat) := do
  step
  if (← peek).isNone then refuse
  else
    let least ← count?
    let bounds ←
      match ← peek with
      | none => refuse
      | some ',' => do
        step
        match ← peek, least with
        | none, _ => refuse
        | _, none => refuse
        | some '\x7d', some least => pure (least, none)
        | some _, some least => do
          match ← count? with
          | some most => pure (least, some most)
          | none => refuse
      | some _ =>
        match least with
        | some least => pure (least, some least)
        | none => refuse
    if (← peek) = some '\x7d' && bounds.2.all (bounds.1 ≤ ·) then
      step
      return bounds
    else refuse

/-- Puts a repetition around the last item. -/
def repeatLast (items : List Item) (bounds : Nat × Option Nat) : Parser (List Item) := do
  match items with
  | [] => refuse
  | last :: earlier =>
    if last.setsFlags then refuse
    else
      if (← peek) = some '?' then advance
      return { expr := .repeated last.expr bounds.1 bounds.2, depth := last.depth + 1 } :: earlier

/-- Alternatives up to the end of the pattern or of the group. `before` holds the finished
alternatives and `items` those of the current one, both with the last one first. -/
def expression : Nat → List Item → List Item → Parser Item
  | 0, _, _ => refuse
  | fuel + 1, before, items => do
    skipSpace
    match ← peek with
    | none => return alternatives (sequence items) before
    | some ')' => return alternatives (sequence items) before
    | some '|' =>
      advance
      expression fuel (sequence items :: before) []
    | some '(' =>
      let outer := (← get).flags
      match ← opening with
      | .flags flags =>
        modify fun s => { s with flags := flags }
        expression fuel before ({ expr := .empty, setsFlags := true } :: items)
      | .group flags captures =>
        modify fun s => { s with flags := flags }
        let inner ← expression fuel [] []
        if (← peek) = some ')' then
          modify fun s => { s with rest := s.rest.tail, flags := outer }
          let expr := if captures then .group inner.expr else inner.expr
          expression fuel before ({ expr := expr, depth := inner.depth + 1 } :: items)
        else refuse
    | some '[' =>
      let flags := (← get).flags
      let found ← bracketed
      expression fuel before ((← setItem flags found.set found.depth) :: items)
    | some '?' =>
      advance
      expression fuel before (← repeatLast items (0, some 1))
    | some '*' =>
      advance
      expression fuel before (← repeatLast items (0, none))
    | some '+' =>
      advance
      expression fuel before (← repeatLast items (1, none))
    | some '\x7b' =>
      if items.isEmpty then refuse
      else
        let bounds ← counts
        expression fuel before (← repeatLast items bounds)
    | some c =>
      let flags := (← get).flags
      let primitive ←
        match c with
        | '\\' => escape
        | '.' => do
          advance
          pure .dot
        | '^' => do
          advance
          pure (.look (if flags.multiLine then .lineStart flags.carriage else .start))
        | '$' => do
          advance
          pure (.look (if flags.multiLine then .lineStop flags.carriage else .stop))
        | c => do
          advance
          pure (.literal { char := c })
      expression fuel before ((← primitiveItem primitive) :: items)

/-- Groups, repetitions, classes and sequences nest at most this deep. -/
def deepest : Nat := 250

/-- Reads a whole pattern. -/
def parseExpr? (pattern : List Char) : Option Expr := do
  let (item, s) ← (expression (pattern.length + 1) [] []).run ⟨pattern, {}, []⟩
  if s.rest.isEmpty && item.depth ≤ deepest then some item.expr else none

end Concord.Pattern
