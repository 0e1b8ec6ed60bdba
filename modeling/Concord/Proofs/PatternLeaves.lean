import Concord.Proofs.ExportPositions
import Concord.Proofs.PatternSyntax

/-!
A pattern binds its leaves. An entry loses the blanks around it and its default, in an object its
key, and what is left is its target; so reading the text of a pattern finds again the names that
its tree binds, in their order and on their lines.
-/
namespace Concord.Export

open Concord.Scan Concord.Text

/-! Ends of entries -/

/-- The text starts with a character that is neither blank nor one of three dots. -/
def startsEntry : List Char → Bool
  | [] => false
  | x :: rest => !isBlank x && (x ≠ '.' || rest.head?.any (· ≠ '.'))

/-- The text ends with a character that is not blank and makes no other mark of an `=` behind it. -/
def endsTarget (text : List Char) : Bool :=
  !isBlank (text.getLastD ' ') && assigns (text.getLastD ' ') none

theorem startsEntry_append {front : List Char} (starts : startsEntry front = true)
    (back : List Char) : startsEntry (front ++ back) = true := by
  match front with
  | [] => cases starts
  | [x] =>
    have dot : x ≠ '.' := by
      simp only [startsEntry, List.head?_nil, Option.any_none, Bool.or_false, Bool.and_eq_true,
        decide_eq_true_eq] at starts
      exact starts.2
    simp only [startsEntry, Bool.and_eq_true] at starts
    simp [startsEntry, starts.1, dot]
  | x :: y :: front => exact starts

theorem shown_of_startsEntry {text : List Char} (starts : startsEntry text = true) :
    isBlank (text.headD ' ') = false := by
  cases text with
  | nil => cases starts
  | cons x text =>
    simp only [startsEntry, Bool.and_eq_true, Bool.not_eq_true'] at starts
    exact starts.1

theorem not_dots_of_startsEntry {text : List Char} (starts : startsEntry text = true) :
    "...".toList.isPrefixOf text = false := by
  match text with
  | [] => rfl
  | [x] => simp [List.isPrefixOf]
  | x :: y :: text =>
    simp only [startsEntry, Bool.and_eq_true, Bool.or_eq_true, decide_eq_true_eq, List.head?_cons,
      Option.any_some] at starts
    rcases starts.2 with dot | dot <;> simp [List.isPrefixOf, Ne.symm dot]

theorem endsTarget_append {text : List Char} (ends : endsTarget text = true) (front : List Char) :
    endsTarget (front ++ text) = true := by
  cases text with
  | nil => cases ends
  | cons x text =>
    rw [endsTarget, getLastD_append]
    exact ends

theorem startsEntry_of_isPlainPart {x : Char} (plain : isPlainPart x = true) (text : List Char) :
    startsEntry (x :: text) = true := by
  have dot : x ≠ '.' := ne_of_isPlainPart plain (by decide)
  simp [startsEntry, isBlank_of_isPlainPart plain, dot]

theorem assigns_of_isPlainPart {x : Char} (plain : isPlainPart x = true) :
    assigns x none = true := by
  have other {mark : Char} (notPlain : isPlainPart mark = false) : x ≠ mark :=
    ne_of_isPlainPart plain notPlain
  simp [assigns, @other '=' (by decide), @other '<' (by decide), @other '>' (by decide),
    @other '!' (by decide)]

theorem Name.startsEntry (name : Name) : startsEntry name.text = true := by
  obtain ⟨text, plain⟩ := name
  cases text with
  | nil => cases plain
  | cons x text =>
    simp only [isIdentifier, Bool.and_eq_true] at plain
    exact startsEntry_of_isPlainPart (by simp [isPlainPart, plain.1]) text

theorem Name.endsTarget (name : Name) : endsTarget name.text = true := by
  have part : isPlainPart (name.text.getLastD ' ') = true := by
    have shown : name.text ≠ [] := by
      intro none
      have plain := name.plain
      rw [none] at plain
      cases plain
    rw [List.getLastD_eq_getLast?, List.getLast?_eq_some_getLast shown]
    exact name.isPlainPart_of_mem (List.getLast_mem shown)
  rw [Export.endsTarget, isBlank_of_isPlainPart part, assigns_of_isPlainPart part]
  rfl

theorem Target.startsEntry (target : Target) : startsEntry target.text = true := by
  cases target with
  | name name => exact name.startsEntry
  | pattern isObject entries => cases isObject <;> rfl

theorem Target.endsTarget (target : Target) : endsTarget target.text = true := by
  cases target with
  | name name => exact name.endsTarget
  | pattern isObject entries =>
    rw [Target.text, ← List.cons_append]
    refine endsTarget_append ?_ _
    cases isObject <;> decide

theorem Key.startsEntry (key : Key) : startsEntry key.text = true := by
  -- by the form of the key; a number may begin with a dot, but then a digit follows
  cases key with
  | identifier name => exact name.startsEntry
  | string literal =>
    rcases literal.quotes with same | same <;> simp only [Key.text, same] <;> rfl
  | number numeral =>
    obtain ⟨text, number⟩ := numeral
    cases text with
    | nil => cases number
    | cons x text =>
      simp only [isNumber, Bool.and_eq_true, Bool.or_eq_true, decide_eq_true_eq] at number
      rcases number.1 with digit | ⟨rfl, digit⟩
      · exact startsEntry_of_isPlainPart (by simp [isPlainPart, digit]) text
      · cases text with
        | nil => cases digit
        | cons y text =>
          have dot : y ≠ '.' := by
            rintro rfl
            cases digit
          simp [Key.text, Export.startsEntry, dot, show isBlank '.' = false by decide]
  | computed expression => rfl

/-! Trimming -/

theorem trimEnd_blanks {blanks : List Char} (blank : ∀ x ∈ blanks, isBlank x = true)
    (text : List Char) : trimEnd (text ++ blanks) = trimEnd text := by
  rw [trimEnd, List.reverse_append, List.dropWhile_append_of_pos, trimEnd]
  exact fun x member => blank x (List.mem_reverse.mp member)

theorem trimEnd_cons {x : Char} (shown : isBlank x = false) (text : List Char) :
    trimEnd (x :: text) = x :: trimEnd text := by
  simp only [trimEnd, List.reverse_cons, List.dropWhile_append]
  split
  next none => simp [List.isEmpty_iff.mp none, shown]
  · simp

theorem Gap.isBlank_of_mem (gap : Gap) : ∀ x ∈ gap.text, isBlank x = true :=
  fun x member => isBlank_of_isAsciiBlank (List.all_eq_true.mp gap.blank x member)

theorem Gap.trim (gap : Gap) {text : List Char} (shown : isBlank (text.headD ' ') = false) :
    Text.trim (gap.text ++ text) = trimEnd text := by
  rw [Text.trim, trimStart, List.dropWhile_append_of_pos gap.isBlank_of_mem]
  exact trim_of_shown shown

theorem Gap.indent (gap : Gap) {text : List Char} (shown : isBlank (text.headD ' ') = false) :
    Text.indent (gap.text ++ text) = gap.text := by
  rw [Text.indent, List.takeWhile_append_of_pos gap.isBlank_of_mem]
  cases text with
  | nil => simp
  | cons x text => simp [show isBlank x = false from shown]

theorem trimEnd_of_endsTarget {text : List Char} (ends : endsTarget text = true) :
    trimEnd text = text := by
  rcases List.eq_nil_or_concat text with rfl | ⟨front, x, rfl⟩
  · cases ends
  · rw [List.concat_eq_append] at ends ⊢
    simp only [endsTarget, getLastD_append, Bool.and_eq_true, Bool.not_eq_true'] at ends
    exact trimEnd_of_shown ends.1

/-! Defaults and keys -/

/-- Behind blanks, an `=` assigns just as behind the text in front of them. -/
theorem Gap.assigns (gap : Gap) {x : Char} (assigned : assigns x none = true) :
    assigns (gap.text.getLastD x) none = true := by
  obtain ⟨blanks, blank⟩ := gap
  rcases List.eq_nil_or_concat blanks with rfl | ⟨front, y, rfl⟩
  · exact assigned
  · have last := List.all_eq_true.mp blank y (by simp)
    simp only [isAsciiBlank, Bool.or_eq_true, decide_eq_true_eq] at last
    show Scan.assigns ((front.concat y).getLastD x) none = true
    rw [List.concat_eq_append, getLastD_append]
    rcases last with (((rfl | rfl) | rfl) | rfl) | rfl <;> rfl

theorem assigns_of_apart {x : Char} {rest : List Char} (assigned : assigns x none = true)
    (apart : ∀ y ∈ rest.head?, y ≠ '=' ∧ y ≠ '>') : assigns x rest.head? = true := by
  cases rest with
  | nil => exact assigned
  | cons y rest =>
    obtain ⟨notEquals, notGreater⟩ := apart y rfl
    simp only [assigns, Bool.and_eq_true] at assigned
    simp [assigns, notEquals, notGreater, assigned.2]

/-- What stands before an `=` behind a text without one. -/
theorem boundPart_assigned {text rest : List Char} (legible : Legible true ['='] text)
    (assigned : assigns (text.getLastD ' ') none = true)
    (apart : ∀ x ∈ rest.head?, x ≠ '=' ∧ x ≠ '>') :
    boundPart (text ++ '=' :: rest) = .ok text := by
  obtain ⟨items, last, rfl, uncut, reads⟩ :=
    legible ('=' :: rest) (stops_cons (by decide) rest)
  rw [boundPart, reads.findAssign_some (uncut '=' List.mem_cons_self)
    (assigns_of_apart assigned apart)]
  show Except.ok (takeBytes _ (byteSize _)) = _
  rw [takeBytes_append]

theorem boundPart_unassigned {text : List Char} (legible : Legible true ['='] text) :
    boundPart text = .ok text := by
  obtain ⟨items, last, rfl, uncut, reads⟩ := legible [] (by simp)
  rw [boundPart, reads.findAssign_none (uncut '=' List.mem_cons_self)]
  rfl

/-- The first character behind the `=` of a default, however its end is trimmed. -/
theorem Default.apart_trimEnd (d : Default) (trail : Gap) :
    ∀ x ∈ (trimEnd (d.after.text ++ (d.text ++ trail.text))).head?, x ≠ '=' ∧ x ≠ '>' := by
  have blank {x : Char} {gap : Gap} (first : gap.text.head? = some x) : x ≠ '=' ∧ x ≠ '>' := by
    have blank := List.all_eq_true.mp gap.blank x (List.mem_of_mem_head? first)
    constructor <;> rintro rfl <;> cases blank
  intro x first
  -- trimming keeps the first character, and that is a blank or the first one of the default
  obtain ⟨blanks, -, split⟩ := trimEnd_split (d.after.text ++ (d.text ++ trail.text))
  have shown : (d.after.text ++ (d.text ++ trail.text)).head? = some x := by
    rw [split, List.head?_append_of_ne_nil, first]
    rintro none
    rw [none] at first
    cases first
  rw [List.head?_append, List.head?_append, Option.or_eq_some_iff, Option.or_eq_some_iff] at shown
  rcases shown with after | ⟨-, text | ⟨-, trail⟩⟩
  · exact blank after
  · have apart := d.apart
    rw [text] at apart
    simpa using apart
  · exact blank trail

/-- Trimming an entry leaves what binds, with the default behind it, and what stands before the
default is what binds. -/
theorem boundPart_entry {lead trail : Gap} {core : List Char} (default : Option Default)
    (legible : Legible true ['='] core) (starts : startsEntry core = true)
    (ends : endsTarget core = true) :
    ∃ (gap : Gap) (rest : List Char),
      trim (lead.text ++ (core ++ (Default.text? default ++ trail.text))) =
        core ++ (gap.text ++ rest) ∧
      boundPart (core ++ (gap.text ++ rest)) = .ok (core ++ gap.text) := by
  have shown (back : List Char) : isBlank ((core ++ back).headD ' ') = false :=
    shown_of_startsEntry (startsEntry_append starts back)
  rw [lead.trim (shown _)]
  -- a default is cut off at its `=`, and the blanks in front of that stay with the bound part
  cases default with
  | none =>
    refine ⟨.empty, [], ?_, ?_⟩
    · rw [Default.text?, List.nil_append, trimEnd_blanks trail.isBlank_of_mem,
        trimEnd_of_endsTarget ends]
      simp [Gap.empty]
    · simpa [Gap.empty] using boundPart_unassigned legible
  | some d =>
    refine ⟨d.before, '=' :: trimEnd (d.after.text ++ (d.text ++ trail.text)), ?_, ?_⟩
    · rw [← trimEnd_cons (by decide), ← List.append_assoc, ← List.append_assoc,
        ← trimEnd_append (trimEnd_ne_nil rfl), Default.text?]
      simp
    · have spaced : Legible true ['='] (core ++ d.before.text) :=
        legible.append (fun _ => d.before.legible) d.before.stops_alone
      rw [← List.append_assoc]
      refine boundPart_assigned spaced ?_ (d.apart_trimEnd trail)
      rw [getLastD_append]
      simp only [endsTarget, Bool.and_eq_true] at ends
      exact d.before.assigns ends.2

theorem bindingTarget_unkeyed {isObject : Bool} {entry bound : List Char}
    (before : boundPart entry = .ok bound) (legible : Legible true [':'] bound) :
    bindingTarget isObject entry = .ok ⟨0, bound⟩ := by
  obtain ⟨items, last, rfl, uncut, reads⟩ := legible [] (by simp)
  have cut : split ':' (Item.source items) = .ok [⟨0, Item.source items⟩] := by
    rw [reads.split_source (by decide), Item.pieces_of_uncut (uncut ':' List.mem_cons_self)]
    rfl
  rw [bindingTarget_eq, before]
  cases isObject with
  | false => rfl
  | true =>
    show (split ':' (Item.source items) >>= _) = _
    rw [cut]
    rfl

/-- Of a field with a key, what stands behind the colon binds. -/
theorem bindingTarget_keyed {entry target : List Char} (key : Key) (before after : Gap)
    (bound : boundPart entry = .ok (keyText key before after ++ target))
    (legible : Legible true [':'] target) :
    bindingTarget true entry =
      .ok ⟨byteSize (key.text ++ (before.text ++ [':'])), after.text ++ target⟩ := by
  have front : Legible true [':'] (key.text ++ before.text) :=
    (key.legible.mono (by decide)).append (fun _ => before.legible) before.stops_alone
  have back : Legible true [':'] (after.text ++ target) := .behind_gap after legible
  obtain ⟨items, last, source, uncut, reads⟩ := back [] (by simp)
  obtain ⟨named, middle, shown, whole, leads⟩ :=
    front (Item.source (.token [':'] :: items) ++ []) (stops_cons (by decide) _)
  have colon : Reads middle (.token [':'] :: items) [] last :=
    .token (.separator (by decide) middle _) reads
  -- neither side of the colon holds another one, so the field is cut there and only there
  have cut := (leads.trans colon).split_source (show isSeparator ':' = true by decide)
  have split_eq : keyText key before after ++ target =
      Item.source (named ++ .token [':'] :: items) := by
    rw [Item.source_append, ← shown, Item.source_cons, ← source, keyText]
    simp [Item.text]
  rw [Item.pieces_append (whole ':' List.mem_cons_self), Item.pieces, if_pos rfl,
    Item.pieces_of_uncut (uncut ':' List.mem_cons_self), ← shown, ← source, ← split_eq] at cut
  rw [bindingTarget_eq, bound]
  show (split ':' (keyText key before after ++ target) >>= _) = _
  rw [cut]
  simp [bind, Except.bind, pure, Except.pure, byteSize]
  omega

/-! Entries -/

/-- The bindings of a target that starts on `line`. -/
def targetBindings (line : Nat) (target : List Char) : Except Imbalance (List Binding) :=
  match nestedPattern? (trim target) with
  | some (isObject, inner) => bindings isObject line inner
  | none => .ok (Binding.ofName target line)

/-- An entry binds what its target binds, on the line of the target. -/
theorem entryBindings_of_target {isObject : Bool} {text before target after : List Char}
    (whole : trim text = before ++ (target ++ after)) (starts : startsEntry (trim text) = true)
    (found : bindingTarget isObject (trim text) = .ok ⟨byteSize before, target⟩)
    (line : Nat) (front back : List Char) :
    entryBindings isObject line (front ++ (text ++ back)) ⟨byteSize front, text⟩ =
      targetBindings (line + lineBreaks front + lineBreaks (indent text) +
        (lineBreaks before + lineBreaks (indent target))) target := by
  have shown : (trim text).isEmpty = false := by
    cases text : trim text with
    | nil => simp [text, startsEntry] at starts
    | cons => rfl
  have place : breaksBefore (trim text) (byteSize before + byteSize (indent target)) =
      lineBreaks before + lineBreaks (indent target) := by
    rw [whole, breaksBefore_indent]
  simp only [entryBindings, shown, not_dots_of_startsEntry starts, found, breaksBefore_indent,
    place, targetBindings, ← Nat.add_assoc]
  rfl

/-- Wherever it stands in a pattern, the entry binds the `leaves` of the line it starts on. -/
def Binds (isObject : Bool) (text : List Char) (leaves : Nat → List Binding) : Prop :=
  ∀ (line : Nat) (front back : List Char),
    entryBindings isObject line (front ++ (text ++ back)) ⟨byteSize front, text⟩ =
      .ok (leaves (line + lineBreaks front))

/-- Between any blanks, the target binds its leaves. -/
def Resolves (target : Target) : Prop :=
  ∀ (line : Nat) (lead trail : Gap),
    targetBindings line (lead.text ++ (target.text ++ trail.text)) = .ok (target.leaves line)

theorem binds_hole {isObject : Bool} (gap : Gap) : Binds isObject gap.text fun _ => [] := by
  intro line front back
  have empty : trim gap.text = [] := by
    have all := gap.isBlank_of_mem
    rw [trim, trimStart, List.dropWhile_eq_nil_iff.mpr all]
    rfl
  simp [entryBindings, empty]

theorem binds_rest {isObject : Bool} (lead inner : Gap) (name : Name) (trail : Gap) :
    Binds isObject (restText lead inner name trail) fun line =>
      [⟨name.text, line + lineBreaks lead.text⟩] := by
  intro line front back
  have dots (text : List Char) : isBlank (("...".toList ++ text).headD ' ') = false := rfl
  have trimmed : trim (restText lead inner name trail) =
      "...".toList ++ (inner.text ++ name.text) := by
    have ends := endsTarget_append name.endsTarget ("...".toList ++ inner.text)
    rw [List.append_assoc] at ends
    have split : "...".toList ++ (inner.text ++ (name.text ++ trail.text)) =
        ("...".toList ++ (inner.text ++ name.text)) ++ trail.text := by simp
    rw [restText, lead.trim (dots _), split, trimEnd_blanks trail.isBlank_of_mem,
      trimEnd_of_endsTarget ends]
  have indented : indent (restText lead inner name trail) = lead.text := lead.indent (dots _)
  have shown : trim (inner.text ++ name.text) = name.text := by
    rw [inner.trim (shown_of_startsEntry name.startsEntry), trimEnd_of_endsTarget name.endsTarget]
  have named (line : Nat) :
      Binding.ofName (inner.text ++ name.text) line = [⟨name.text, line⟩] := by
    rw [Binding.ofName, shown, if_pos name.plain]
  -- the line of a rest is that of its dots, behind the blanks in front of them
  have place : breaksBefore (front ++ (restText lead inner name trail ++ back))
      (byteSize front + byteSize lead.text) = lineBreaks front + lineBreaks lead.text := by
    rw [← indented, breaksBefore_indent]
  simp only [entryBindings, trimmed, indented, place, ← Nat.add_assoc]
  rw [← named]
  rfl

theorem binds_unkeyed {isObject : Bool} {target : Target} (resolves : Resolves target)
    (lead : Gap) (default : Option Default) (trail : Gap) :
    Binds isObject (entryText lead [] target.text default trail) fun line =>
      target.leaves (line + lineBreaks lead.text) := by
  intro line front back
  have shown (text : List Char) : isBlank ((target.text ++ text).headD ' ') = false :=
    shown_of_startsEntry (startsEntry_append target.startsEntry text)
  obtain ⟨gap, rest, trimmed, bound⟩ := @boundPart_entry lead trail target.text default
    (target.legible.mono (by decide)) target.startsEntry target.endsTarget
  rw [← trimmed] at bound
  have found := @bindingTarget_unkeyed isObject _ _ bound
    ((target.legible.mono (by decide)).append (fun _ => gap.legible) gap.stops_alone)
  have starts := startsEntry_append target.startsEntry (gap.text ++ rest)
  rw [← trimmed] at starts
  -- nothing stands in front of the target, so it is on the line of the entry
  have read := @entryBindings_of_target isObject _ [] (target.text ++ gap.text) rest
    (by rw [trimmed]; simp) starts found line front back
  have indented : indent (target.text ++ gap.text) = [] := Gap.empty.indent (shown _)
  rw [lead.indent (shown _), indented] at read
  exact read.trans (resolves _ .empty gap)

theorem binds_keyed {target : Target} (resolves : Resolves target) (lead : Gap) (key : Key)
    (before after : Gap) (default : Option Default) (trail : Gap) :
    Binds true (entryText lead (keyText key before after) target.text default trail) fun line =>
      target.leaves (line + lineBreaks lead.text + lineBreaks (keyText key before after)) := by
  intro line front back
  let core := keyText key before after ++ target.text
  have starts (text : List Char) : startsEntry (core ++ text) = true :=
    startsEntry_append (startsEntry_append (startsEntry_append key.startsEntry _) _) text
  have core_eq : entryText lead (keyText key before after) target.text default trail =
      lead.text ++ (core ++ (Default.text? default ++ trail.text)) := by
    simp [core, entryText]
  obtain ⟨gap, rest, trimmed, bound⟩ := @boundPart_entry lead trail core default
    (keyText_legible key before after (by decide) (by decide) (target.legible.mono (by decide)))
    (by simpa using starts []) (endsTarget_append target.endsTarget _)
  rw [← trimmed, ← core_eq] at bound
  rw [← core_eq] at trimmed
  have found := bindingTarget_keyed key before after (by rw [bound, List.append_assoc])
    ((target.legible.mono (by decide)).append (fun _ => gap.legible) gap.stops_alone)
  -- the target starts behind the colon, and the blanks there are its indent
  have whole : trim (entryText lead (keyText key before after) target.text default trail) =
      (key.text ++ (before.text ++ [':'])) ++
        ((after.text ++ (target.text ++ gap.text)) ++ rest) := by
    rw [trimmed]
    simp [core, keyText]
  have read := entryBindings_of_target whole (by rw [trimmed]; exact starts _) found line front back
  have indented : indent (entryText lead (keyText key before after) target.text default trail) =
      lead.text := by
    rw [core_eq]
    exact lead.indent (shown_of_startsEntry (starts _))
  have spaced : indent (after.text ++ (target.text ++ gap.text)) = after.text :=
    after.indent (shown_of_startsEntry (startsEntry_append target.startsEntry _))
  have breaks : lineBreaks (keyText key before after) =
      lineBreaks (key.text ++ (before.text ++ [':'])) + lineBreaks after.text := by
    rw [← lineBreaks_append]
    simp [keyText]
  rw [indented, spaced, ← breaks] at read
  exact read.trans (resolves _ after gap)

/-! Patterns -/

/-- Joined at the end of a pattern, the entries bind the `leaves` of the line they start on. -/
def BindsAll (isObject : Bool) (texts : List (List Char)) (leaves : Nat → List Binding) : Prop :=
  ∀ (line : Nat) (front pattern : List Char), (texts ≠ [] → pattern = front ++ joined texts) →
    ∃ found, (piecesAt (byteSize front) texts).mapM (entryBindings isObject line pattern) =
      .ok found ∧ found.flatten = leaves (line + lineBreaks front)

theorem bindsAll_nil {isObject : Bool} : BindsAll isObject [] fun _ => [] :=
  fun _ _ _ _ => ⟨[[]], rfl, rfl⟩

theorem bindsAll_cons {isObject : Bool} {text : List Char} {texts : List (List Char)}
    {leaves later : Nat → List Binding} (first : Binds isObject text leaves)
    (others : BindsAll isObject texts later) :
    BindsAll isObject (text :: texts) fun line =>
      leaves line ++ later (line + lineBreaks text) := by
  intro line front pattern whole
  have whole := whole (by simp)
  cases texts with
  | nil =>
    -- behind the last entry nothing is bound
    have none : later (line + lineBreaks front + lineBreaks text) = [] := by
      obtain ⟨found, read, flat⟩ := others line (front ++ text) [] (by simp)
      cases read
      rw [lineBreaks_append, ← Nat.add_assoc] at flat
      exact flat.symm
    have read := first line front []
    rw [List.append_nil, show front ++ text = pattern from whole.symm] at read
    refine ⟨[leaves (line + lineBreaks front)], ?_, by simp [none]⟩
    rw [piecesAt, List.mapM_cons, read]
    rfl
  | cons next texts =>
    obtain ⟨found, read, flat⟩ := others line (front ++ (text ++ [','])) pattern
      (fun _ => by simp [whole, joined])
    have one := first line front (',' :: joined (next :: texts))
    rw [show front ++ (text ++ ',' :: joined (next :: texts)) = pattern from whole.symm] at one
    have place : byteSize (front ++ (text ++ [','])) = byteSize front + byteSize text + 1 := by
      simp [byteSize, Nat.add_assoc]
      rfl
    have breaks : lineBreaks (front ++ (text ++ [','])) = lineBreaks front + lineBreaks text := by
      simp [lineBreaks]
    rw [place] at read
    rw [breaks, ← Nat.add_assoc] at flat
    refine ⟨leaves (line + lineBreaks front) :: found, ?_, by simp [flat]⟩
    rw [piecesAt, List.mapM_cons, one, read]
    rfl

/-- Entries between commas bind their leaves. -/
theorem bindings_joined {isObject : Bool} {texts : List (List Char)} {leaves : Nat → List Binding}
    (legible : ∀ text ∈ texts, ∀ flag, Legible flag [','] text)
    (binds : BindsAll isObject texts leaves) (line : Nat) :
    bindings isObject line (joined texts) = .ok (leaves line) := by
  obtain ⟨items, last, joins, reads, pieces⟩ := @reads_joined texts true [] legible (by simp)
  have cut := reads.split_source (show isSeparator ',' = true by decide)
  obtain ⟨found, each, flat⟩ := binds line [] (joined texts) (fun _ => rfl)
  rw [byteSize] at each
  rw [← joins, pieces] at cut
  simp only [bindings_eq, cut, bind, Except.bind, each]
  exact congrArg Except.ok flat

/-- The brackets of a pattern are dropped, and they tell an object from an array. -/
theorem nestedPattern?_pattern (isObject : Bool) (body : List Char) :
    nestedPattern?
        ((patternBracket isObject).opener :: (body ++ [(patternBracket isObject).closer])) =
      some (isObject, body) := by
  have cut (mark : Char) : (dropLastMark? mark (body ++ [mark])).getD (body ++ [mark]) = body := by
    rw [dropLastMark?_eq_some_iff.mpr rfl]
    rfl
  cases isObject <;>
    simp [nestedPattern?, patternBracket, Bracket.opener, Bracket.closer, dropMark?, cut]

theorem nestedPattern?_name (name : Name) : nestedPattern? name.text = none := by
  obtain ⟨text, plain⟩ := name
  cases text with
  | nil => cases plain
  | cons x text =>
    have part : isPlainPart x = true := by
      simp only [isIdentifier, Bool.and_eq_true] at plain
      simp [isPlainPart, plain.1]
    have curly : x ≠ '\x7b' := ne_of_isPlainPart part (by decide)
    have square : x ≠ '[' := ne_of_isPlainPart part (by decide)
    simp [nestedPattern?, dropMark?, curly, square]

/-- The blanks around a target are trimmed. -/
theorem Target.trim (target : Target) (lead trail : Gap) :
    Text.trim (lead.text ++ (target.text ++ trail.text)) = target.text := by
  rw [lead.trim (shown_of_startsEntry (startsEntry_append target.startsEntry _)),
    trimEnd_blanks trail.isBlank_of_mem, trimEnd_of_endsTarget target.endsTarget]

theorem resolves_name (name : Name) : Resolves (.name name) := by
  intro line lead trail
  rw [targetBindings, Target.trim, Target.text, nestedPattern?_name, Binding.ofName]
  have trimmed : Text.trim (lead.text ++ (name.text ++ trail.text)) = name.text :=
    (Target.name name).trim lead trail
  rw [trimmed, if_pos name.plain]
  rfl

mutual

/-- A target binds its leaves. -/
theorem Target.resolves (target : Target) : Resolves target := by
  match target with
  | .name name => exact resolves_name name
  | .pattern isObject entries =>
    intro line lead trail
    rw [targetBindings, Target.trim, Target.text, nestedPattern?_pattern]
    exact bindings_entries entries line

/-- The body of a pattern binds the leaves of the pattern. -/
theorem bindings_entries {isObject : Bool} (entries : Entries isObject) (line : Nat) :
    bindings isObject line (joined entries.texts) = .ok (entries.leaves line) :=
  bindings_joined (fun text member _ => entries.legible text member) entries.bindsAll line

/-- Entries bind their leaves, one entry after the other. -/
theorem Entries.bindsAll {isObject : Bool} (entries : Entries isObject) :
    BindsAll isObject entries.texts fun line => entries.leaves line := by
  match entries with
  | .nil => exact bindsAll_nil
  | .hole gap more => exact bindsAll_cons (binds_hole gap) more.bindsAll
  | .rest lead inner name trail more =>
    exact bindsAll_cons (binds_rest lead inner name trail) more.bindsAll
  | .item lead target default trail more =>
    exact bindsAll_cons (binds_unkeyed target.resolves lead default trail) more.bindsAll
  | .shorthand lead name default trail more =>
    exact bindsAll_cons (binds_unkeyed (resolves_name name) lead default trail) more.bindsAll
  | .keyed lead key before after target default trail more =>
    exact bindsAll_cons (binds_keyed target.resolves lead key before after default trail)
      more.bindsAll

end

end Concord.Export
