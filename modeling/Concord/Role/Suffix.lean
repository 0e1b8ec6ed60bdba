import Concord.Text.Basic

/-!
File-name suffixes such as `.store` or `.*.impl`: dotted segments of which at most one stands for a
variant.
-/
namespace Concord

open Concord.Text

inductive Suffix.Segment where
  | literal (text : List Char)
  | variant
  deriving DecidableEq, Repr

structure Suffix where
  raw : String
  segments : List Suffix.Segment
  deriving DecidableEq, Repr

namespace Suffix

/-- A segment is `*` or a non-empty text without `*` and `/`. -/
def segment? (part : List Char) : Option Segment :=
  if part.isEmpty then none
  else if part = ['*'] then some .variant
  else if part.contains '*' || part.contains '/' then none
  else some (.literal part)

/-- Reads a suffix: a dot, then segments between dots, at most one of them a variant. -/
def parse? (raw : String) : Option Suffix := do
  let body ← dropMark? '.' raw.toList
  let segments ← (splitAt '.' body).mapM segment?
  if segments.count .variant ≤ 1 then some ⟨raw, segments⟩ else none

/-- The part that a segment stands for: a literal stands for itself and binds no variant. -/
def Segment.accepts (segment : Segment) (part : List Char) : Bool :=
  match segment with
  | literal text => text = part
  | variant => !part.isEmpty

/-- A match: what stays in front, the bytes taken with their dots, and the variant. -/
structure Match where
  base : List (List Char)
  size : Nat
  variant : Option (List Char)
  deriving DecidableEq, Repr

/-- The part behind which the variant segment stands, if there is one. -/
def variantOf : List Segment → List (List Char) → Option (List Char)
  | .variant :: _, part :: _ => some part
  | _ :: segments, _ :: parts => variantOf segments parts
  | _, _ => none

/-- Matches the last parts of a dotted file stem. Some part in front must be non-empty, so that the
component keeps a name. -/
def match? (suffix : Suffix) (parts : List (List Char)) : Option Match :=
  let kept := parts.length - suffix.segments.length
  let base := parts.take kept
  let tail := parts.drop kept
  if suffix.segments.length < parts.length && base.any (!·.isEmpty)
      && (suffix.segments.zip tail).all (fun (segment, part) => segment.accepts part) then
    some
      { base := base
        size := tail.foldl (fun size part => size + byteSize part + 1) 0
        variant := variantOf suffix.segments tail }
  else none

end Suffix

end Concord
