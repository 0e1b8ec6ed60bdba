import Concord.Proofs.MaskedLexemes
import Concord.Proofs.ScanSteps

/-!
The scanner and the mask agree on what code is. The scanner keeps one stack of brackets and
templates; the mask keeps a context with a depth for each template it is in, and no brackets at all.
`Tracks` relates the two, every step of the scanner keeps it, and so a scan finds in a text what the
stack matcher finds in its mask.
-/
namespace Concord.Scan

open Concord.Text

namespace Masking

variable {m : Masking} {depth : Nat}

theorem InCode.step_opener (code : m.InCode depth) (bracket : Bracket) (rest : List Char) :
    m.step bracket.opener rest =
      ([bracket.opener],
        { m with context := .code (if bracket = .curly then depth + 1 else depth),
                 regexOk := true }) := by
  cases bracket with
  | curly =>
    rw [code.step]
    rfl
  | round | square =>
    -- only curly brackets count for the depth
    have same : m.allow true = { m with context := .code depth, regexOk := true } := by
      rw [← code.context]
      rfl
    rw [code.step_other (by decide) (by decide) (by decide) (fun slash => absurd slash (by decide))]
    exact congrArg (Prod.mk _) same

theorem InCode.step_backquote (code : m.InCode depth) (rest : List Char) :
    m.step '\x60' rest =
      (['\x60'], { m with context := .template, outer := .code depth :: m.outer }) := by
  rw [code.step]
  rfl

/-- A round or square bracket means nothing to the mask. -/
theorem InCode.step_closer (code : m.InCode depth) {bracket : Bracket} (other : bracket ≠ .curly)
    (rest : List Char) : m.step bracket.closer rest = ([bracket.closer], m.allow false) := by
  cases bracket with
  | curly => exact absurd rfl other
  | round | square =>
    rw [code.step_other (by decide) (by decide) (by decide) (fun slash => absurd slash (by decide))]
    rfl

theorem InCode.step_closer_deeper (code : m.InCode (depth + 1)) (rest : List Char) :
    m.step '\x7d' rest = (['\x7d'], { m with context := .code depth, regexOk := true }) := by
  rw [code.step]
  rfl

/-- The brace that closes a substitution leads back into its template. -/
theorem InCode.step_closer_last (code : m.InCode 0) {below : Context} {outer : List Context}
    (around : m.outer = below :: outer) (rest : List Char) :
    m.step '\x7d' rest =
      (['\x7d'], { m with context := below, outer := outer, regexOk := true }) := by
  rw [code.step]
  simp [stepCode, around]

theorem InCode.shows_closer (code : m.InCode depth) (bracket : Bracket) (rest : List Char) :
    ∃ after, m.step bracket.closer rest = ([bracket.closer], after) := by
  cases bracket with
  | round | square => exact ⟨_, code.step_closer (by decide) rest⟩
  | curly =>
    cases depth with
    | succ depth => exact ⟨_, code.step_closer_deeper rest⟩
    | zero =>
      cases around : m.outer with
      | cons below outer => exact ⟨_, code.step_closer_last around rest⟩
      | nil =>
        -- a brace that closes nothing leaves the mask at depth 0
        refine ⟨{ m with context := .code 0, regexOk := true }, ?_⟩
        rw [code.step]
        simp [stepCode, around, Bracket.closer]

end Masking

/-- The contexts of the mask where the scanner has these frames open. A curly group deepens the
code it stands in; the one right above a template is the substitution, which starts code anew. -/
inductive Tracks : List Frame → Masking.Context → List Masking.Context → Prop
  | outside : Tracks [] (.code 0) []
  | template {line depth : Nat} {frames : List Frame} {outer : List Masking.Context}
      (below : Tracks frames (.code depth) outer) :
      Tracks (.template line :: frames) .template (.code depth :: outer)
  | substitution {line opened : Nat} {frames : List Frame} {outer : List Masking.Context}
      (below : Tracks (.template opened :: frames) .template outer) :
      Tracks (.group .curly line :: .template opened :: frames) (.code 0) (.template :: outer)
  | curly {line depth : Nat} {frames : List Frame} {outer : List Masking.Context}
      (below : Tracks frames (.code depth) outer) :
      Tracks (.group .curly line :: frames) (.code (depth + 1)) outer
  | other {bracket : Bracket} {line depth : Nat} {frames : List Frame}
      {outer : List Masking.Context} (notCurly : bracket ≠ .curly)
      (below : Tracks frames (.code depth) outer) :
      Tracks (.group bracket line :: frames) (.code depth) outer

/-- The mask stands where the scanner stands. -/
structure Follows (frames : List Frame) (c : Cursor) (m : Masking) : Prop where
  tracks : Tracks frames m.context m.outer
  mode : m.mode = .plain
  flag : m.context ≠ .template → m.regexOk = c.regexOk

/-- The brackets among the open frames. -/
def openers : List Frame → List Opener
  | [] => []
  | .group bracket line :: frames => ⟨bracket, line⟩ :: openers frames
  | .template _ :: frames => openers frames

/-- What the stack matcher finds in the mask of the rest of a text. -/
def Masking.mismatch? (m : Masking) (frames : List Frame) (c : Cursor) : Option Imbalance :=
  Scan.mismatch? (openers frames) c.line (m.run c.rest)

/-- A literal or comment that the end of the text cuts off. -/
def Fault.isCutOff (fault : Fault) : Prop :=
  fault = .openTemplate ∨ fault = .openComment

/-- The mask can follow to `later` and `next`, and shows there what it shows here. -/
def Masking.GoesAlong (m : Masking) (frames : List Frame) (c : Cursor) (later : List Frame)
    (next : Cursor) : Prop :=
  ∃ after, Follows later next after ∧ m.mismatch? frames c = after.mismatch? later next

theorem Masking.run_shown {m after : Masking} {x : Char} {rest : List Char}
    (step : m.step x rest = ([x], after)) : m.run (x :: rest) = x :: after.run rest := by
  rw [run, step]
  rfl

theorem Tracks.code_cases {frames : List Frame} {context : Masking.Context}
    {outer : List Masking.Context} (tracks : Tracks frames context outer)
    (code : frames.head?.map Frame.enclosure ≠ some .template) :
    ∃ depth, context = .code depth := by
  cases tracks with
  | template below => exact absurd rfl code
  | _ => exact ⟨_, rfl⟩

theorem Tracks.template_cases {frames : List Frame} {line : Nat} {context : Masking.Context}
    {outer : List Masking.Context} (tracks : Tracks (.template line :: frames) context outer) :
    ∃ depth around, context = .template ∧ outer = .code depth :: around ∧
      Tracks frames (.code depth) around := by
  cases tracks with
  | template below => exact ⟨_, _, rfl, rfl, below⟩

@[simp] theorem Bracket.lineBreaks_opener (bracket : Bracket) :
    lineBreaks [bracket.opener] = 0 := by
  cases bracket <;> rfl

@[simp] theorem Bracket.lineBreaks_closer (bracket : Bracket) :
    lineBreaks [bracket.closer] = 0 := by
  cases bracket <;> rfl

namespace Follows

variable {frames : List Frame} {c : Cursor} {m : Masking} {depth line : Nat} {bracket : Bracket}
  {text rest : List Char} {after : Bool}

theorem inCode (follows : Follows frames c m)
    (code : frames.head?.map Frame.enclosure ≠ some .template) : ∃ depth, m.InCode depth := by
  obtain ⟨depth, context⟩ := follows.tracks.code_cases code
  exact ⟨depth, context, follows.mode⟩

/-! Moves in code -/

theorem quiet {kind : Lexeme} (follows : Follows frames c m) (code : m.InCode depth)
    (clean : ¬ KeywordBehindSlash c.rest) (lexes : Lexes c.regexOk kind text rest after)
    (quiet : kind.quiet = true) (split : c.rest = text ++ rest) :
    m.GoesAlong frames c frames (c.advance text rest after) := by
  have same : m.regexOk = c.regexOk := follows.flag (by simp [code.context])
  refine ⟨m.allow after, ⟨follows.tracks, follows.mode, fun _ => rfl⟩, ?_⟩
  rw [Masking.mismatch?, split, code.lexeme_passes same lexes quiet (split ▸ clean)]
  rfl

theorem opener (follows : Follows frames c m) (code : m.InCode depth)
    (split : c.rest = bracket.opener :: rest) :
    m.GoesAlong frames c (.group bracket c.line :: frames)
      (c.advance [bracket.opener] rest true) := by
  have below : Tracks frames (.code depth) m.outer := code.context ▸ follows.tracks
  refine ⟨{ m with context := .code (if bracket = .curly then depth + 1 else depth),
                   regexOk := true }, ⟨?_, follows.mode, fun _ => rfl⟩, ?_⟩
  · by_cases curly : bracket = .curly
    · rw [if_pos curly, curly]
      exact .curly below
    · rw [if_neg curly]
      exact .other curly below
  · rw [Masking.mismatch?, split, Masking.run_shown (code.step_opener bracket _), mismatch?_opener]
    simp [Masking.mismatch?, Cursor.advance, openers]

theorem closer (follows : Follows (.group bracket line :: frames) c m) (code : m.InCode depth)
    (split : c.rest = bracket.closer :: rest) :
    m.GoesAlong (.group bracket line :: frames) c frames
      (c.advance [bracket.closer] rest (regexMayFollow bracket.closer)) := by
  have shows {after : Masking} (shown : m.step bracket.closer rest = ([bracket.closer], after)) :
      m.mismatch? (.group bracket line :: frames) c = after.mismatch? frames
        (c.advance [bracket.closer] rest (regexMayFollow bracket.closer)) := by
    rw [Masking.mismatch?, split, Masking.run_shown shown, openers, mismatch?_closer_cons,
      if_pos rfl]
    simp [Masking.mismatch?, Cursor.advance]
  have tracks := follows.tracks
  rw [code.context] at tracks
  generalize around : m.outer = outer at tracks
  -- the frame says which depth the mask is in: the last of a substitution, deeper, or any
  cases tracks with
  | @substitution _ opened _ outer below =>
    exact ⟨{ m with context := .template, outer := outer, regexOk := true },
      ⟨below, follows.mode, fun _ => rfl⟩, shows (code.step_closer_last around _)⟩
  | @curly _ depth _ _ below =>
    exact ⟨{ m with context := .code depth, regexOk := true },
      ⟨around ▸ below, follows.mode, fun _ => rfl⟩, shows (code.step_closer_deeper _)⟩
  | other notCurly below =>
    refine ⟨m.allow false, ⟨?_, follows.mode, fun _ => ?_⟩, shows (code.step_closer notCurly _)⟩
    · change Tracks frames m.context m.outer
      rw [code.context, around]
      exact below
    · cases bracket with
      | curly => exact absurd rfl notCurly
      | round | square => rfl

theorem backquote (follows : Follows frames c m) (code : m.InCode depth)
    (split : c.rest = '\x60' :: rest) :
    m.GoesAlong frames c (.template c.line :: frames) (c.advance ['\x60'] rest after) := by
  have below : Tracks frames (.code depth) m.outer := code.context ▸ follows.tracks
  refine ⟨{ m with context := .template, outer := .code depth :: m.outer },
    ⟨.template below, follows.mode, fun inCode => absurd rfl inCode⟩, ?_⟩
  rw [Masking.mismatch?, split, Masking.run_shown (code.step_backquote _),
    mismatch?_other (by decide)]
  rfl

/-! Moves in template text -/

theorem step_template (follows : Follows (.template line :: frames) c m) (x : Char) :
    m.step x rest = m.stepTemplate x rest := by
  obtain ⟨_, _, template, -⟩ := follows.tracks.template_cases
  simp [Masking.step, Masking.stepPlain, follows.mode, template]

/-- An escape or a character of the text. -/
theorem templateText (follows : Follows (.template line :: frames) c m)
    (passes : m.Passes text rest m) (split : c.rest = text ++ rest) :
    m.GoesAlong (.template line :: frames) c (.template line :: frames)
      (c.advance text rest false) := by
  obtain ⟨_, _, template, -⟩ := follows.tracks.template_cases
  refine ⟨m, ⟨follows.tracks, follows.mode, fun inCode => absurd template inCode⟩, ?_⟩
  rw [Masking.mismatch?, split, passes]
  rfl

theorem escape_passes (follows : Follows (.template line :: frames) c m) (x : Char) :
    m.Passes ['\\', x] rest m := by
  have plain : { m with mode := .plain } = m := by
    rw [← follows.mode]
  rw [← plain]
  refine .escape ?_ (.stay rfl)
  rw [plain, follows.step_template]
  simp [Masking.stepTemplate]

theorem text_passes (follows : Follows (.template line :: frames) c m) {x : Char}
    (notTick : x ≠ '\x60') (noEscape : x = '\\' → rest = [])
    (noOpen : x = '$' → rest.head? ≠ some '\x7b') : m.Passes [x] rest m := by
  by_cases escape : x = '\\'
  · -- the last character of the text, so the mode it leaves is never used
    rw [noEscape escape]
    refine .last ?_
    rw [follows.step_template]
    simp [Masking.stepTemplate, escape]
  · refine .hidden ?_ (.stay rfl)
    rw [follows.step_template]
    simp only [Masking.stepTemplate, if_neg escape, if_neg notTick, List.nil_append]
    rw [if_neg (by simpa using noOpen)]

theorem substitution (follows : Follows (.template line :: frames) c m)
    (split : c.rest = '$' :: '\x7b' :: rest) :
    m.GoesAlong (.template line :: frames) c (.group .curly c.line :: .template line :: frames)
      (c.advance ['$', '\x7b'] rest true) := by
  have dollar : m.step '$' ('\x7b' :: rest) = (['$'],
      { context := .code 0, outer := .template :: m.outer, mode := .kept .plain,
        regexOk := true }) := by
    rw [follows.step_template]
    rfl
  obtain ⟨_, _, template, -⟩ := follows.tracks.template_cases
  refine ⟨{ context := .code 0, outer := .template :: m.outer, mode := .plain, regexOk := true },
    ⟨.substitution (template ▸ follows.tracks), rfl, fun _ => rfl⟩, ?_⟩
  -- the brace is kept as the second half of `${`, and the matcher counts it
  rw [Masking.mismatch?, split, Masking.run_shown dollar, mismatch?_other (by decide),
    Masking.run_shown rfl]
  exact mismatch?_opener .curly

theorem templateEnd (follows : Follows (.template line :: frames) c m)
    (split : c.rest = '\x60' :: rest) :
    m.GoesAlong (.template line :: frames) c frames (c.advance ['\x60'] rest false) := by
  obtain ⟨depth, outer, -, around, below⟩ := follows.tracks.template_cases
  have closes : m.step '\x60' rest = (['\x60'],
      { m with context := .code depth, outer := outer, regexOk := false }) := by
    rw [follows.step_template]
    simp [Masking.stepTemplate, around]
  refine ⟨{ m with context := .code depth, outer := outer, regexOk := false },
    ⟨below, follows.mode, fun _ => rfl⟩, ?_⟩
  rw [Masking.mismatch?, split, Masking.run_shown closes, mismatch?_other (by decide)]
  rfl

/-! Runs -/

/-- The mask goes along with every move of the scanner. -/
theorem moves {change : Change} (follows : Follows frames c m)
    (clean : ¬ KeywordBehindSlash c.rest)
    (moves : Moves (frames.head?.map Frame.enclosure) c.regexOk text rest change after)
    (split : c.rest = text ++ rest) :
    m.GoesAlong frames c (change.frames c.line frames) (c.advance text rest after) := by
  generalize around : frames.head?.map Frame.enclosure = top at moves
  generalize flag : c.regexOk = regexOk at moves
  -- one lemma for each kind of move; outside a template the mask is in code, inside one it is in
  -- the template
  cases moves with
  | quiet notTemplate lexes quiet =>
    obtain ⟨depth, code⟩ := follows.inCode (around ▸ notTemplate)
    exact follows.quiet code clean (flag ▸ lexes) quiet split
  | opener notTemplate lexes =>
    obtain ⟨depth, code⟩ := follows.inCode (around ▸ notTemplate)
    obtain ⟨rfl, rfl⟩ := lexes.opener_text
    exact follows.opener code split
  | @closer _ _ bracket _ _ lexes =>
    obtain ⟨depth, code⟩ := follows.inCode (by simp [around])
    obtain ⟨rfl, rfl⟩ := lexes.closer_text
    obtain ⟨line, below, rfl⟩ := Cursor.cons_group around
    exact follows.closer code split
  | backquote notTemplate lexes =>
    obtain ⟨depth, code⟩ := follows.inCode (around ▸ notTemplate)
    obtain rfl := lexes.backquote_text
    exact follows.backquote code split
  | escape x =>
    obtain ⟨line, below, rfl⟩ := Cursor.cons_template around
    exact follows.templateText (follows.escape_passes x) split
  | substitution =>
    obtain ⟨line, below, rfl⟩ := Cursor.cons_template around
    exact follows.substitution split
  | templateEnd =>
    obtain ⟨line, below, rfl⟩ := Cursor.cons_template around
    exact follows.templateEnd split
  | templateText notTick noEscape noOpen =>
    obtain ⟨line, below, rfl⟩ := Cursor.cons_template around
    exact follows.templateText (follows.text_passes notTick noEscape noOpen) split

/-- It shows every fault but a literal or comment that the end of the text cuts off. -/
theorem fails {imbalance : Imbalance} (follows : Follows frames c m)
    (fails : Fails frames c imbalance) :
    imbalance.fault.isCutOff ∨ m.mismatch? frames c = some imbalance := by
  -- what is cut off by the end of the text is not seen in the mask; every other fault is a closer
  -- that is shown
  cases fails with
  | openTemplate => exact Or.inl (Or.inl rfl)
  | openComment => exact Or.inl (Or.inr rfl)
  | neverClosed ended =>
    refine Or.inr ?_
    rw [Masking.mismatch?, ended]
    rfl
  | unmatched text =>
    obtain ⟨depth, code⟩ := follows.inCode (by simp)
    obtain ⟨after, shown⟩ := code.shows_closer _ _
    refine Or.inr ?_
    rw [Masking.mismatch?, text, Masking.run_shown shown, openers, mismatch?_closer_nil]
  | wrongCloser text differ =>
    obtain ⟨depth, code⟩ := follows.inCode (by simp [Frame.enclosure])
    obtain ⟨after, shown⟩ := code.shows_closer _ _
    refine Or.inr ?_
    rw [Masking.mismatch?, text, Masking.run_shown shown, openers, mismatch?_closer_cons,
      if_neg differ]

/-- So a whole run is shown in the mask. -/
theorem imbalance? {frames : List Frame} {c : Cursor} {m : Masking} (follows : Follows frames c m)
    (clean : ¬ KeywordBehindSlash c.rest) :
    (∃ imbalance, c.imbalance? frames = some imbalance ∧ imbalance.fault.isCutOff) ∨
      c.imbalance? frames = m.mismatch? frames c := by
  cases read : c.step frames with
  | ended =>
    obtain ⟨rfl, ended⟩ := Cursor.eq_nil_of_ended read
    refine Or.inr ?_
    rw [Cursor.imbalance?_of_ended read, Masking.mismatch?, ended]
    rfl
  | failed imbalance =>
    rw [Cursor.imbalance?_of_failed read]
    rcases follows.fails (Cursor.fails_of_step read) with cut | shown
    · exact Or.inl ⟨imbalance, rfl, cut⟩
    · exact Or.inr shown.symm
  | moved later next =>
    -- the mask follows the move, and from there the rest of the run
    have := Cursor.step_length_lt read
    obtain ⟨text, change, split, advanced, moves, rfl⟩ := Cursor.moves_of_step read
    obtain ⟨after, follows, same⟩ := follows.moves clean moves split
    rw [← advanced] at follows same
    rw [Cursor.imbalance?_of_moved read, same]
    refine follows.imbalance? fun found => clean ?_
    rw [split]
    exact found.append text
  termination_by c.rest.length

end Follows

theorem follows_start (text : List Char) : Follows [] (Cursor.start text) Masking.initial :=
  ⟨.outside, rfl, fun _ => rfl⟩

/-- A scan finds in a text exactly what the stack matcher finds in its mask. -/
theorem scan_imbalance?_eq_mismatch?_mask (text : List Char) (clean : ¬ KeywordBehindSlash text)
    (whole : ∀ imbalance, (scan text).stop.imbalance? = some imbalance →
      imbalance.fault ≠ .openTemplate ∧ imbalance.fault ≠ .openComment) :
    (scan text).stop.imbalance? = mismatch? [] 1 (mask text) ∧
      ((scan text).stop.imbalance? = none ↔ WellNested (mask text)) := by
  have same : (scan text).stop.imbalance? = mismatch? [] 1 (mask text) := by
    rcases (follows_start text).imbalance? clean with ⟨imbalance, found, cut⟩ | same
    · rw [← scan_imbalance?] at found
      obtain ⟨noTemplate, noComment⟩ := whole imbalance found
      exact (cut.elim noTemplate noComment).elim
    · rw [scan_imbalance?, same]
      rfl
  exact ⟨same, by rw [same, mismatch?_eq_none_iff]⟩

/-- Brackets in a string, in template text and in a character class, and a pair that crosses. -/
def crossedBrackets : List Char :=
  "a = `x$\x7b \x7bb: '\x7d'\x7d \x7d(`; /[/(]/g; (\n]".toList

theorem scan_imbalance?_eq_mismatch?_mask_crossed :
    ¬ KeywordBehindSlash crossedBrackets ∧
      (scan crossedBrackets).stop.imbalance? = some ⟨2, .wrongCloser .square .round 1⟩ ∧
      (scan crossedBrackets).stop.imbalance? = mismatch? [] 1 (mask crossedBrackets) ∧
      ((scan crossedBrackets).stop.imbalance? = none ↔ WellNested (mask crossedBrackets)) := by
  have clean : ¬ KeywordBehindSlash crossedBrackets := by decide
  have crossed : (scan crossedBrackets).stop.imbalance? =
      some ⟨2, .wrongCloser .square .round 1⟩ := by decide +kernel
  refine ⟨clean, crossed, scan_imbalance?_eq_mismatch?_mask crossedBrackets clean ?_⟩
  intro imbalance found
  rw [crossed] at found
  obtain rfl := Option.some.inj found
  decide

end Concord.Scan
