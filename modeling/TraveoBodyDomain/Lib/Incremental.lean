import Mathlib.Tactic.Common
import Mathlib.Data.List.Basic

/-!
# Scanning a stream that arrives in pieces

A scanner takes one token after the other off the front of its input, until it
needs more.  When a token does not depend on what comes after it, scanning a
stream in pieces, with what was left over put before the next piece, finds the
same tokens as scanning it at once.
-/

namespace Incremental

/-- Takes one token off the input; `none` needs more input. -/
structure Scanner (Symbol Token : Type) where
  next : List Symbol → Option (Token × List Symbol)
  shrinks :
    ∀ {input token rest},
      next input = some (token, rest) → rest.length < input.length
  stable :
    ∀ {input token rest more},
      next input = some (token, rest) →
        next (input ++ more) = some (token, rest ++ more)

namespace Scanner

variable {Symbol Token : Type} (scanner : Scanner Symbol Token)

/-- The tokens that can be taken off, and what is left over. -/
def scan (input : List Symbol) : List Token × List Symbol :=
  match taken : scanner.next input with
  | none => ([], input)
  | some (token, rest) =>
      have := scanner.shrinks taken
      let (tokens, left) := scan rest
      (token :: tokens, left)
  termination_by input.length

/-- Pieces are scanned in turn, each behind what the last one left over. -/
def scanAll : List Symbol → List (List Symbol) → List Token × List Symbol
  | left, [] => ([], left)
  | left, piece :: pieces =>
      let (tokens, left) := scanner.scan (left ++ piece)
      let (more, left) := scanAll left pieces
      (tokens ++ more, left)

variable {scanner} {input : List Symbol}

/-- Input that needs more is left over. -/
theorem scan_none (needsMore : scanner.next input = none) :
    scanner.scan input = ([], input) := by
  rw [scan]
  split
  · rfl
  · next taken =>
      rw [needsMore] at taken
      cases taken

/-- A token, and what is behind it. -/
theorem scan_some
    {token : Token}
    {rest : List Symbol}
    (taken : scanner.next input = some (token, rest)) :
    scanner.scan input =
      (token :: (scanner.scan rest).1, (scanner.scan rest).2) := by
  rw [scan]
  split
  · next needsMore =>
      rw [needsMore] at taken
      cases taken
  · next other left otherTaken =>
      cases taken.symm.trans otherTaken
      rfl

/-- What is left over needs more. -/
theorem next_left (input : List Symbol) :
    scanner.next (scanner.scan input).2 = none := by
  induction length : input.length using Nat.strongRecOn
    generalizing input with
  | ind n inductionHypothesis =>
      cases taken : scanner.next input with
      | none =>
          rw [scan_none taken]
          exact taken
      | some found =>
          obtain ⟨token, rest⟩ := found
          rw [scan_some taken]
          exact
            inductionHypothesis rest.length
              (length ▸ scanner.shrinks taken) rest rfl

/-- Scanning goes on behind what the first part left over. -/
theorem scan_append (input more : List Symbol) :
    scanner.scan (input ++ more) =
      ((scanner.scan input).1 ++
          (scanner.scan ((scanner.scan input).2 ++ more)).1,
        (scanner.scan ((scanner.scan input).2 ++ more)).2) := by
  induction length : input.length using Nat.strongRecOn
    generalizing input with
  | ind n inductionHypothesis =>
      cases taken : scanner.next input with
      | none =>
          rw [scan_none taken]
          rfl
      | some found =>
          obtain ⟨token, rest⟩ := found
          have behind :=
            inductionHypothesis rest.length
              (length ▸ scanner.shrinks taken) rest rfl
          rw [scan_some taken, scan_some (scanner.stable taken), behind]
          rfl

/-- However a stream is cut into pieces, the same tokens are found. -/
theorem scanAll_eq
    {left : List Symbol}
    (waits : scanner.next left = none)
    (pieces : List (List Symbol)) :
    scanner.scanAll left pieces = scanner.scan (left ++ pieces.flatten) := by
  induction pieces generalizing left with
  | nil =>
      rw [List.flatten_nil, List.append_nil, scan_none waits]
      rfl
  | cons piece pieces inductionHypothesis =>
      rw [List.flatten_cons, ← List.append_assoc, scan_append,
        ← inductionHypothesis (next_left (left ++ piece))]
      rfl

end Scanner

end Incremental
