import Concord.Scan.Cursor
import Concord.Text.Blank

/-!
Masking: the text with the contents of strings, template text, regular expressions and comments
turned into spaces. Code stays, substitutions of a template included, and so does every line break.
The mask is written character by character, each one kept or blanked, so its bytes stand where the
bytes of the text stand.
-/
namespace Concord.Scan

open Concord.Text

/-- What the next character belongs to. -/
inductive Masking.Mode where
  | plain
  | word (regexOk : Bool)
  | quoted (quote : Char)
  | regex (inClass : Bool)
  | lineComment
  | blockComment
  | escaped (mode : Mode)
  | kept (mode : Mode)
  deriving DecidableEq, Repr

/-- Code inside a substitution or at the top, with the curly brackets open in it, or template
text. -/
inductive Masking.Context where
  | code (depth : Nat)
  | template
  deriving DecidableEq, Repr

/-- `outer` holds the contexts around the innermost one. -/
structure Masking where
  context : Masking.Context
  outer : List Masking.Context
  mode : Masking.Mode
  regexOk : Bool
  deriving DecidableEq, Repr

/-- Spaces in place of a character, byte for byte; a line break stays. -/
def blanked (c : Char) : List Char :=
  if c = '\n' then ['\n'] else List.replicate c.utf8Size ' '

namespace Masking

def initial : Masking :=
  ⟨.code 0, [], .plain, true⟩

/-- A character of template text. -/
def stepTemplate (m : Masking) (c : Char) (rest : List Char) : List Char × Masking :=
  if c = '\\' then (blanked c, { m with mode := .escaped .plain })
  else if c = '\x60' then
    match m.outer with
    | [] => ([c], { m with context := .code 0, regexOk := false })
    | below :: outer => ([c], { m with context := below, outer := outer, regexOk := false })
  else if c = '$' && rest.head? = some '\x7b' then
    ([c],
      { context := .code 0, outer := .template :: m.outer, mode := .kept .plain, regexOk := true })
  else (blanked c, m)

/-- A character of code that starts no word and continues none. -/
def stepCode (m : Masking) (depth : Nat) (c : Char) (rest : List Char) : List Char × Masking :=
  if c = '\x27' || c = '\x22' then ([c], { m with mode := .quoted c })
  else if c = '\x60' then
    ([c], { m with context := .template, outer := .code depth :: m.outer })
  else if c = '/' && rest.head? = some '/' then (blanked c, { m with mode := .lineComment })
  else if c = '/' && rest.head? = some '*' then
    (blanked c, { m with mode := .escaped .blockComment })
  else if c = '/' && m.regexOk then ([c], { m with mode := .regex false })
  else if c = '\x7b' then ([c], { m with context := .code (depth + 1), regexOk := true })
  else if c = '\x7d' then
    match depth, m.outer with
    | 0, below :: outer => ([c], { m with context := below, outer := outer, regexOk := true })
    | _, _ => ([c], { m with context := .code (depth - 1), regexOk := true })
  else if isWordStart c then
    ([c], { m with mode := .word (regexMayFollowWord (c :: rest.takeWhile isWordPart)) })
  else ([c], { m with regexOk := if isAsciiBlank c then m.regexOk else regexMayFollow c })

def stepPlain (m : Masking) (c : Char) (rest : List Char) : List Char × Masking :=
  match m.context with
  | .template => m.stepTemplate c rest
  | .code depth => m.stepCode depth c rest

/-- The mask of one character and the state behind it; `rest` is the text after it. -/
def step (m : Masking) (c : Char) (rest : List Char) : List Char × Masking :=
  match m.mode with
  | .escaped mode => (blanked c, { m with mode := mode })
  | .kept mode => ([c], { m with mode := mode })
  | .plain => m.stepPlain c rest
  | .word regexOk =>
    if isWordPart c then ([c], m)
    else { m with mode := .plain, regexOk := regexOk }.stepPlain c rest
  | .quoted quote =>
    if c = quote then ([c], { m with mode := .plain, regexOk := false })
    else if c = '\n' then ([c], { m with mode := .plain, regexOk := false })
    else if c = '\\' then (blanked c, { m with mode := .escaped m.mode })
    else (blanked c, m)
  | .regex inClass =>
    if c = '\n' || c = '/' && !inClass then ([c], { m with mode := .plain, regexOk := false })
    else if c = '\\' then (blanked c, { m with mode := .escaped m.mode })
    else if c = '[' then (blanked c, { m with mode := .regex true })
    else if c = ']' then (blanked c, { m with mode := .regex false })
    else (blanked c, m)
  | .lineComment => if c = '\n' then ([c], { m with mode := .plain }) else (blanked c, m)
  | .blockComment =>
    if c = '*' && rest.head? = some '/' then (blanked c, { m with mode := .escaped .plain })
    else (blanked c, m)

/-- The mask of the rest of a text. -/
def run : Masking → List Char → List Char
  | _, [] => []
  | m, c :: rest =>
    let (out, next) := m.step c rest
    out ++ next.run rest

end Masking

def mask (text : List Char) : List Char :=
  Masking.initial.run text

end Concord.Scan
