import Concord.Proofs.MaskStates
import Mathlib.Data.List.Forall2

/-!
The bytes of a mask. Masking can as well be done on the UTF-8 bytes of a text, one byte at a time
and without knowing where a character ends; an escape then hides one byte. Both ways come to the
same bytes, so the bytes masked on their own are again a text, and it has the shape of the text
before.
-/
namespace Concord.Scan

open Concord.Text

/-- The UTF-8 form of a text. -/
def bytes (text : List Char) : List UInt8 :=
  text.flatMap String.utf8EncodeChar

/-- The character with the number of a byte. -/
def byteChar (byte : UInt8) : Char :=
  Char.ofNat byte.toNat

/-- Masking of bytes: each byte is looked at as a character of its own. -/
def Masking.runBytes : Masking → List UInt8 → List UInt8
  | _, [] => []
  | m, byte :: rest =>
    let (out, next) := m.step (byteChar byte) (rest.map byteChar)
    (if out = [byteChar byte] then byte else 0x20) :: next.runBytes rest

/-- A character outside ASCII. -/
def isWide (c : Char) : Bool :=
  0x80 ≤ c.toNat

@[simp] theorem bytes_nil : bytes [] = [] :=
  rfl

@[simp] theorem bytes_cons (c : Char) (rest : List Char) :
    bytes (c :: rest) = String.utf8EncodeChar c ++ bytes rest :=
  rfl

@[simp] theorem bytes_append (front back : List Char) :
    bytes (front ++ back) = bytes front ++ bytes back :=
  List.flatMap_append

theorem length_bytes (text : List Char) : (bytes text).length = byteSize text := by
  induction text with
  | nil => rfl
  | cons c rest ih => simp [byteSize, ih]

@[simp] theorem byteChar_toNat (byte : UInt8) : (byteChar byte).toNat = byte.toNat := by
  have small : byte.toNat < 256 := byte.toNat_lt
  have valid : byte.toNat.isValidChar := Or.inl (by omega)
  rw [byteChar, Char.ofNat, dif_pos valid]
  rfl

theorem byteChar_inj {first second : UInt8} (same : byteChar first = byteChar second) :
    first = second := by
  have numbers := congrArg Char.toNat same
  simpa [UInt8.toNat_inj] using numbers

/-- An ASCII character is one byte. -/
theorem utf8EncodeChar_narrow {c : Char} (narrow : isWide c = false) :
    ∃ byte, String.utf8EncodeChar c = [byte] ∧ byteChar byte = c := by
  simp only [isWide, decide_eq_false_iff_not, Nat.not_le] at narrow
  have small : c.val.toNat ≤ 127 := Nat.le_of_lt_succ narrow
  refine ⟨UInt8.ofNat c.toNat, ?_, ?_⟩
  · simp only [String.utf8EncodeChar, small, if_true]
    rfl
  · have number : (UInt8.ofNat c.toNat).toNat = c.toNat := by
      simp only [UInt8.toNat_ofNat']
      omega
    simp [byteChar, number]

/-- Every byte of a wide character is wide. -/
theorem utf8EncodeChar_wide {c : Char} (wide : isWide c = true) :
    ∃ byte rest, String.utf8EncodeChar c = byte :: rest ∧
      ∀ b ∈ byte :: rest, isWide (byteChar b) = true := by
  simp only [isWide, decide_eq_true_eq] at wide
  have large : ¬ c.val.toNat ≤ 127 := Nat.not_le.mpr wide
  simp only [String.utf8EncodeChar, large, if_false]
  -- two, three or four bytes
  split
  · refine ⟨_, _, rfl, ?_⟩
    simp [isWide]
    omega
  split
  · refine ⟨_, _, rfl, ?_⟩
    simp [isWide]
    omega
  · refine ⟨_, _, rfl, ?_⟩
    simp [isWide]
    omega

/-- The bytes of a text, each as a character. -/
def latin (text : List Char) : List Char :=
  (bytes text).map byteChar

theorem latin_append (front back : List Char) :
    latin (front ++ back) = latin front ++ latin back := by
  rw [latin, bytes_append, List.map_append, ← latin, ← latin]

theorem length_latin (text : List Char) : (latin text).length = byteSize text := by
  rw [latin, List.length_map, length_bytes]

theorem latin_narrow {c : Char} (narrow : isWide c = false) (rest : List Char) :
    latin (c :: rest) = c :: latin rest := by
  obtain ⟨byte, encoded, char⟩ := utf8EncodeChar_narrow narrow
  simp [latin, encoded, char]

theorem latin_wide {c : Char} (wide : isWide c = true) (rest : List Char) :
    ∃ x more, latin (c :: rest) = x :: more ++ latin rest ∧ ∀ y ∈ x :: more, isWide y = true := by
  obtain ⟨byte, more, encoded, all⟩ := utf8EncodeChar_wide wide
  refine ⟨byteChar byte, more.map byteChar, by simp [latin, encoded], ?_⟩
  intro y member
  rw [← List.map_cons] at member
  obtain ⟨b, place, rfl⟩ := List.mem_map.mp member
  exact all b place

theorem latin_cons (c : Char) (rest : List Char) : latin (c :: rest) = latin [c] ++ latin rest :=
  latin_append [c] rest

/-- The bytes of a wide character are wide; any other character is its own byte. -/
theorem latin_singleton (c : Char) :
    (isWide c = true ∧ ∃ x more, latin [c] = x :: more ∧ ∀ y ∈ x :: more, isWide y = true) ∨
      (isWide c = false ∧ latin [c] = [c]) := by
  rcases Bool.eq_false_or_eq_true (isWide c) with wide | narrow
  · obtain ⟨x, more, split, all⟩ := latin_wide wide []
    have whole : latin [c] = x :: more := by simpa [latin] using split
    exact Or.inl ⟨wide, x, more, whole, all⟩
  · exact Or.inr ⟨narrow, latin_narrow narrow []⟩

theorem isWordPart_of_isWide {c : Char} (wide : isWide c = true) : isWordPart c = true := by
  simp only [isWide] at wide
  simp [isWordPart, isWordStart, wide]

/-- Looking at bytes finds an ASCII character in front just where it stands. -/
theorem head?_latin {x : Char} (narrow : isWide x = false) (text : List Char) :
    (latin text).head? = some x ↔ text.head? = some x := by
  cases text with
  | nil => rfl
  | cons c rest =>
    rcases Bool.eq_false_or_eq_true (isWide c) with wide | ascii
    · obtain ⟨y, more, split, all⟩ := latin_wide wide rest
      have first : isWide y = true := all y List.mem_cons_self
      rw [split]
      simp only [List.cons_append, List.head?_cons, Option.some.injEq]
      constructor
      · rintro rfl
        simp [first] at narrow
      · rintro rfl
        simp [wide] at narrow
    · rw [latin_narrow ascii, List.head?_cons, List.head?_cons]

theorem takeWhile_latin (text : List Char) :
    (latin text).takeWhile isWordPart = latin (text.takeWhile isWordPart) := by
  induction text with
  | nil => rfl
  | cons c rest ih =>
    rcases Bool.eq_false_or_eq_true (isWide c) with wide | ascii
    · obtain ⟨byte, more, encoded, all⟩ := utf8EncodeChar_wide wide
      rw [List.takeWhile_cons, if_pos (isWordPart_of_isWide wide)]
      simp only [latin, bytes_cons, List.map_append] at ih ⊢
      rw [List.takeWhile_append_of_pos, ih]
      intro x member
      obtain ⟨b, place, rfl⟩ := List.mem_map.mp member
      rw [encoded] at place
      exact isWordPart_of_isWide (all b place)
    · rw [latin_narrow ascii, List.takeWhile_cons, List.takeWhile_cons, ih]
      split
      · rw [latin_narrow ascii]
      · rfl

theorem latin_of_narrow {text : List Char} (narrow : ∀ x ∈ text, isWide x = false) :
    latin text = text := by
  induction text with
  | nil => rfl
  | cons c rest ih =>
    rw [latin_narrow (narrow c List.mem_cons_self),
      ih fun x member => narrow x (List.mem_cons_of_mem c member)]

theorem exists_wide_latin {text : List Char} {x : Char} (member : x ∈ text)
    (wide : isWide x = true) : ∃ y ∈ latin text, isWide y = true := by
  obtain ⟨front, back, rfl⟩ := List.append_of_mem member
  obtain ⟨y, more, split, all⟩ := latin_wide wide back
  refine ⟨y, ?_, all y List.mem_cons_self⟩
  have parts : latin (front ++ x :: back) = latin front ++ latin (x :: back) := by simp [latin]
  rw [parts, split]
  simp

/-- The keywords are ASCII. -/
theorem regexMayFollowWord_wide {word : List Char} {x : Char} (member : x ∈ word)
    (wide : isWide x = true) : regexMayFollowWord word = false := by
  rw [← Bool.not_eq_true]
  intro keyword
  simp only [regexMayFollowWord, List.any_eq_true, decide_eq_true_eq] at keyword
  obtain ⟨keyword, listed, rfl⟩ := keyword
  have ascii : keyword.toList.all (!isWide ·) = true := by
    clear member
    revert keyword
    decide
  simpa [wide] using List.all_eq_true.mp ascii x member

theorem regexMayFollowWord_latin (c : Char) (word : List Char) :
    regexMayFollowWord (c :: latin word) = regexMayFollowWord (c :: word) := by
  by_cases narrow : ∀ x ∈ word, isWide x = false
  · rw [latin_of_narrow narrow]
  · simp only [not_forall, Bool.not_eq_false] at narrow
    obtain ⟨x, member, wide⟩ := narrow
    obtain ⟨y, shown, wideToo⟩ := exists_wide_latin member wide
    rw [regexMayFollowWord_wide (List.mem_cons_of_mem c shown) wideToo,
      regexMayFollowWord_wide (List.mem_cons_of_mem c member) wide]

namespace Masking

/-- A step looks ahead for ASCII characters and for keywords only. -/
theorem step_latin (m : Masking) (c : Char) (rest : List Char) :
    m.step c (latin rest) = m.step c rest := by
  have slash := head?_latin (x := '/') rfl rest
  have star := head?_latin (x := '*') rfl rest
  have opener := head?_latin (x := '\x7b') rfl rest
  simp only [step, stepPlain, stepCode, stepTemplate, slash, star, opener, takeWhile_latin,
    regexMayFollowWord_latin]

/-- Wide characters from here on are all shown or all blanked, and after the first one the state
stays. -/
structure Settles (m : Masking) (shows : Bool) (next : Masking) : Prop where
  first {x : Char} {text : List Char} (wide : isWide x = true) :
    m.step x text = (if shows then [x] else blanked x, next)
  later {x : Char} {text : List Char} (wide : isWide x = true) :
    next.step x text = (if shows then [x] else blanked x, next)

theorem ne_of_isWide {x y : Char} (wide : isWide x = true) (narrow : isWide y = false) : x ≠ y := by
  rintro rfl
  simp [wide] at narrow

theorem Hides.settles {m : Masking} (hides : Hides m) : Settles m false m :=
  ⟨fun wide => hides.step (isInert_of_any wide (by decide)) _,
    fun wide => hides.step (isInert_of_any wide (by decide)) _⟩

/-- An escape hides the first character, or the first byte, whatever it is. -/
theorem Hides.settles_escaped {context : Context} {outer : List Context} {mode : Mode}
    {regexOk : Bool} (hides : Hides ⟨context, outer, mode, regexOk⟩) :
    Settles ⟨context, outer, .escaped mode, regexOk⟩ false ⟨context, outer, mode, regexOk⟩ :=
  ⟨fun _ => rfl, fun wide => hides.step (isInert_of_any wide (by decide)) _⟩

theorem step_template_wide (outer : List Context) (regexOk : Bool) {x : Char}
    (wide : isWide x = true) (text : List Char) :
    (⟨.template, outer, .plain, regexOk⟩ : Masking).step x text =
      (blanked x, ⟨.template, outer, .plain, regexOk⟩) :=
  step_template_text (ne_of_isWide wide rfl) (ne_of_isWide wide rfl)
    fun opens => ne_of_isWide wide rfl opens.1

theorem step_word_wide (context : Context) (outer : List Context) (flag regexOk : Bool) {x : Char}
    (wide : isWide x = true) (text : List Char) :
    (⟨context, outer, .word flag, regexOk⟩ : Masking).step x text =
      ([x], ⟨context, outer, .word flag, regexOk⟩) := by
  simp [Masking.step, isWordPart_of_isWide wide]

/-- A wide character of code starts a word that is no keyword. -/
theorem stepCode_wide (m : Masking) (depth : Nat) {x : Char} (wide : isWide x = true)
    (text : List Char) : m.stepCode depth x text = ([x], { m with mode := .word false }) := by
  have other {y : Char} (narrow : isWide y = false) : x ≠ y := ne_of_isWide wide narrow
  have quotes : x ≠ '\x27' ∧ x ≠ '\x22' ∧ x ≠ '\x60' := ⟨other rfl, other rfl, other rfl⟩
  have marks : x ≠ '/' ∧ x ≠ '\x7b' ∧ x ≠ '\x7d' := ⟨other rfl, other rfl, other rfl⟩
  have starts : isWordStart x = true := by
    simp only [isWide] at wide
    simp [isWordStart, wide]
  have plain : regexMayFollowWord (x :: text.takeWhile isWordPart) = false :=
    regexMayFollowWord_wide List.mem_cons_self wide
  simp [stepCode, quotes, marks, starts, plain]

theorem Arises.settles {m : Masking} {c : Char} {rest : List Char} (arises : Arises m (c :: rest))
    (wide : isWide c = true) : ∃ shows next, Settles m shows next := by
  cases arises with
  | @code depth outer regexOk =>
    exact ⟨true, ⟨.code depth, outer, .word false, regexOk⟩,
      fun wide => stepCode_wide _ depth wide _, fun wide => step_word_wide _ _ _ _ wide _⟩
  | word =>
    exact ⟨true, _, fun wide => step_word_wide _ _ _ _ wide _,
      fun wide => step_word_wide _ _ _ _ wide _⟩
  | quoted quotes => exact ⟨false, _, (Hides.quoted quotes).settles⟩
  | quotedEscape quotes => exact ⟨false, _, (Hides.quoted quotes).settles_escaped⟩
  | regex => exact ⟨false, _, Hides.regex.settles⟩
  | regexEscape => exact ⟨false, _, Hides.regex.settles_escaped⟩
  | lineComment => exact ⟨false, _, Hides.lineComment.settles⟩
  | blockComment => exact ⟨false, _, Hides.blockComment.settles⟩
  | template =>
    exact ⟨false, _, fun wide => step_template_wide _ _ wide _,
      fun wide => step_template_wide _ _ wide _⟩
  | templateEscape => exact ⟨false, _, fun _ => rfl, fun wide => step_template_wide _ _ wide _⟩
  -- what stands second in a mark is an ASCII character
  | commentStart => exact absurd wide (by decide)
  | commentEnd => exact absurd wide (by decide)
  | substitution => exact absurd wide (by decide)

theorem runBytes_cons (m : Masking) (byte : UInt8) (rest : List UInt8) :
    m.runBytes (byte :: rest) =
      (if (m.step (byteChar byte) (rest.map byteChar)).1 = [byteChar byte] then byte else 0x20) ::
        (m.step (byteChar byte) (rest.map byteChar)).2.runBytes rest :=
  rfl

/-- The bytes of a wide character are treated alike, wherever the state settled. -/
theorem Settles.runBytes_cons {m next : Masking} {shows : Bool} (settles : Settles m shows next)
    {byte : UInt8} (wide : isWide (byteChar byte) = true) (rest : List UInt8) :
    m.runBytes (byte :: rest) = (if shows then byte else 0x20) :: next.runBytes rest := by
  have solid : byteChar byte ≠ ' ' ∧ byteChar byte ≠ '\n' :=
    ⟨ne_of_isWide wide rfl, ne_of_isWide wide rfl⟩
  rw [Masking.runBytes_cons, settles.first wide]
  cases shows with
  | true => simp
  | false => simp [blanked_ne solid]

theorem Settles.runBytes {m next : Masking} {shows : Bool} (settles : Settles m shows next)
    {byte : UInt8} {more : List UInt8} (wide : ∀ b ∈ byte :: more, isWide (byteChar b) = true)
    (rest : List UInt8) :
    m.runBytes (byte :: more ++ rest) =
      (byte :: more).map (fun b => if shows then b else 0x20) ++ next.runBytes rest := by
  induction more generalizing m byte with
  | nil => exact settles.runBytes_cons (wide byte List.mem_cons_self) rest
  | cons second more ih =>
    have stays : Settles next shows next := ⟨settles.later, settles.later⟩
    rw [List.cons_append, settles.runBytes_cons (wide byte List.mem_cons_self),
      ih stays fun b member => wide b (List.mem_cons_of_mem byte member)]
    rfl

theorem bytes_blanked {c : Char} (other : c ≠ '\n') :
    bytes (blanked c) = List.replicate c.utf8Size 0x20 := by
  have spaces : ∀ count, bytes (List.replicate count ' ') = List.replicate count 0x20 := by
    intro count
    induction count with
    | zero => rfl
    | succ count ih =>
      rw [List.replicate_succ, bytes_cons, ih, List.replicate_succ]
      rfl
  rw [blanked, if_neg other, spaces]

theorem bytes_shown {c : Char} (other : c ≠ '\n') (shows : Bool) :
    bytes (if shows then [c] else blanked c) =
      (String.utf8EncodeChar c).map fun b => if shows then b else 0x20 := by
  cases shows with
  | true => simp
  | false => simp [bytes_blanked other]

/-- A byte of its own is treated as its character is. -/
theorem bytes_step_narrow (m : Masking) {c : Char} {byte : UInt8}
    (encoded : String.utf8EncodeChar c = [byte]) (char : byteChar byte = c) (rest : List Char) :
    bytes (m.step c rest).1 = [if (m.step c rest).1 = [c] then byte else 0x20] := by
  by_cases shown : (m.step c rest).1 = [c]
  · simp [shown, encoded]
  · have out : (m.step c rest).1 = blanked c := (m.step_fst c rest).resolve_left shown
    -- a line break is shown either way
    have other : c ≠ '\n' := by
      rintro rfl
      exact shown out
    have width : c.utf8Size = 1 := by
      rw [← String.length_utf8EncodeChar, encoded, List.length_singleton]
    rw [if_neg shown, out, bytes_blanked other, width]
    rfl

/-- Masking byte by byte comes to the bytes of the mask. -/
theorem Arises.runBytes_bytes {m : Masking} {text : List Char} (arises : Arises m text) :
    m.runBytes (bytes text) = bytes (m.run text) := by
  induction text generalizing m with
  | nil => rfl
  | cons c rest ih =>
    rw [run, bytes_append, ← ih arises.step, bytes_cons]
    rcases Bool.eq_false_or_eq_true (isWide c) with wide | narrow
    · -- the state settles with the first byte, so the others are treated like it
      obtain ⟨byte, more, encoded, all⟩ := utf8EncodeChar_wide wide
      obtain ⟨shows, next, settles⟩ := arises.settles wide
      rw [settles.first wide, bytes_shown (ne_of_isWide wide rfl), encoded, settles.runBytes all]
    · obtain ⟨byte, encoded, char⟩ := utf8EncodeChar_narrow narrow
      have ahead : (bytes rest).map byteChar = latin rest := rfl
      rw [bytes_step_narrow m encoded char, encoded, List.singleton_append, Masking.runBytes_cons,
        ahead, char, step_latin]
      rfl

/-- What masking may do to a byte: nothing, or a space for something other than a line break. -/
def Blanks (byte masked : UInt8) : Prop :=
  masked = byte ∨ masked = 0x20 ∧ byte ≠ 0x0a

theorem Blanks.newline_iff {byte masked : UInt8} (blanks : Blanks byte masked) :
    masked = 0x0a ↔ byte = 0x0a := by
  rcases blanks with rfl | ⟨rfl, other⟩
  · rfl
  · simp [other]

theorem forall₂_runBytes (m : Masking) (source : List UInt8) :
    List.Forall₂ Blanks source (m.runBytes source) := by
  induction source generalizing m with
  | nil => exact .nil
  | cons byte rest ih =>
    rw [runBytes_cons]
    refine .cons ?_ (ih _)
    by_cases shown : (m.step (byteChar byte) (rest.map byteChar)).1 = [byteChar byte]
    · exact Or.inl (if_pos shown)
    · refine Or.inr ⟨if_neg shown, ?_⟩
      rintro rfl
      exact shown ((step_fst ..).elim id id)

end Masking

/-! The shape of a text, read off its bytes. -/

theorem byteAt?_eq_getElem? (text : List Char) (offset : Nat) :
    byteAt? text offset = (bytes text)[offset]? := by
  induction text generalizing offset with
  | nil => rfl
  | cons c rest ih =>
    rw [byteAt?, bytes_cons]
    split
    next inside =>
      rw [List.getElem?_append_left]
      rwa [String.length_utf8EncodeChar]
    next behind =>
      rw [List.getElem?_append_right, String.length_utf8EncodeChar, ih]
      rw [String.length_utf8EncodeChar]
      exact Nat.le_of_not_lt behind

/-- A line break is one byte, and no byte of another character. -/
theorem count_take_utf8EncodeChar (c : Char) {offset : Nat} (inside : offset ≠ 0) :
    ((String.utf8EncodeChar c).take offset).count 0x0a = if c = '\n' then 1 else 0 := by
  rcases Bool.eq_false_or_eq_true (isWide c) with wide | narrow
  · obtain ⟨byte, more, encoded, all⟩ := utf8EncodeChar_wide wide
    rw [if_neg (Masking.ne_of_isWide wide rfl), encoded, List.count_eq_zero]
    intro member
    exact absurd (all 0x0a (List.mem_of_mem_take member)) (by decide)
  · obtain ⟨byte, encoded, rfl⟩ := utf8EncodeChar_narrow narrow
    rw [encoded, List.take_of_length_le (by simpa using Nat.one_le_iff_ne_zero.mpr inside),
      List.count_singleton]
    have same : byte = 0x0a ↔ byteChar byte = '\n' :=
      ⟨fun newline => by rw [newline]; rfl, fun newline => byteChar_inj newline⟩
    simp [same]

theorem breaksBefore_eq_count (text : List Char) (offset : Nat) :
    breaksBefore text offset = ((bytes text).take offset).count 0x0a := by
  induction text generalizing offset with
  | nil => simp [breaksBefore]
  | cons c rest ih =>
    rw [breaksBefore, bytes_cons, List.take_append, List.count_append,
      String.length_utf8EncodeChar, ← ih]
    split
    next start => simp [start, ih]
    next inside => rw [count_take_utf8EncodeChar c inside]

theorem count_newline_of_forall₂ {source masked : List UInt8}
    (shape : List.Forall₂ Masking.Blanks source masked) :
    masked.count 0x0a = source.count 0x0a := by
  induction shape with
  | nil => rfl
  | cons blanks shape ih => simp [List.count_cons, ih, blanks.newline_iff]

theorem getElem?_of_forall₂ {source masked : List UInt8}
    (shape : List.Forall₂ Masking.Blanks source masked) (offset : Nat) :
    masked[offset]? = source[offset]? ∨
      masked[offset]? = some 0x20 ∧ ∃ byte, source[offset]? = some byte ∧ byte ≠ 0x0a := by
  induction shape generalizing offset with
  | nil => exact Or.inl rfl
  | @cons byte masked source rest blanks shape ih =>
    cases offset with
    | zero =>
      rcases blanks with rfl | ⟨rfl, other⟩
      · exact Or.inl rfl
      · exact Or.inr ⟨rfl, byte, rfl, other⟩
    | succ offset => exact ih offset

theorem fromUTF8?_bytes (text : List Char) :
    String.fromUTF8? (bytes text).toByteArray = some (String.ofList text) := by
  have valid : (bytes text).toByteArray.IsValidUTF8 := ⟨text, rfl⟩
  rw [String.fromUTF8?, dif_pos valid]
  rfl

/-- The mask has the shape of its text. Masked byte by byte the text comes to valid UTF-8, which is
the mask; it has as many bytes, each of them the byte of the text or a space in place of something
other than a line break; so lines begin and end at the same places. -/
theorem mask_keepsShape (text : List Char) :
    String.fromUTF8? (Masking.initial.runBytes (bytes text)).toByteArray =
        some (String.ofList (mask text)) ∧
      byteSize (mask text) = byteSize text ∧
      (∀ offset, byteAt? (mask text) offset = byteAt? text offset ∨
        byteAt? (mask text) offset = some 0x20 ∧
          ∃ byte, byteAt? text offset = some byte ∧ byte ≠ 0x0a) ∧
      (∀ offset, byteAt? (mask text) offset = some 0x0a ↔ byteAt? text offset = some 0x0a) ∧
      ∀ offset, lineAt (mask text) offset = lineAt text offset := by
  have same : Masking.initial.runBytes (bytes text) = bytes (mask text) :=
    (Masking.arises_initial text).runBytes_bytes
  have shape := Masking.initial.forall₂_runBytes (bytes text)
  rw [same] at shape
  -- the bytes of the mask stand in the same relation to those of the text one by one
  have each (offset : Nat) : byteAt? (mask text) offset = byteAt? text offset ∨
      byteAt? (mask text) offset = some 0x20 ∧
        ∃ byte, byteAt? text offset = some byte ∧ byte ≠ 0x0a := by
    rw [byteAt?_eq_getElem?, byteAt?_eq_getElem?]
    exact getElem?_of_forall₂ shape offset
  have breaks (offset : Nat) :
      byteAt? (mask text) offset = some 0x0a ↔ byteAt? text offset = some 0x0a := by
    rcases each offset with kept | ⟨blank, byte, found, other⟩
    · rw [kept]
    · simp [blank, found, other]
  -- so both have the same line breaks in front of every offset
  have lines (offset : Nat) : lineAt (mask text) offset = lineAt text offset := by
    rw [lineAt, lineAt, breaksBefore_eq_count, breaksBefore_eq_count,
      count_newline_of_forall₂ (List.forall₂_take offset shape)]
  refine ⟨?_, ?_, each, breaks, lines⟩
  · rw [same, fromUTF8?_bytes]
  · rw [← length_bytes, ← length_bytes, shape.length_eq]

end Concord.Scan
