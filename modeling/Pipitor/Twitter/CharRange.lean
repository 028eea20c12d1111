import Pipitor.Foundation.Fallible
import Pipitor.Twitter.Entities

/-!
# Replacing a range of characters

`replace_char_range` as the source has it, with the string that it edits in place as a state: what it leaves
and returns for every offset between two characters.
-/

namespace Pipitor.Util

open Twitter (ExpandError charIndexToByteIndex charIndexToByteIndex_eq)
open Fallible

/-- Of the string from a position on, or the panic. -/
def slice (pos : ℕ) : StateT (List Char) (Except ExpandError) (List Char) := do
  let some rest := Utf8.sliceFrom (← get) pos | throw .charBoundary
  return rest

/-- `replace_char_range`. -/
def replaceCharRange (baseByteOffset : ℕ) (range : ℕ × ℕ) (replaceWith : List Char) :
    StateT (List Char) (Except ExpandError) (Option ℕ) := do
  let some i := charIndexToByteIndex (← slice baseByteOffset) range.1 | return none
  let start := baseByteOffset + i
  let rest ← slice start
  if range.2 < range.1 then throw .overflow
  let some i := charIndexToByteIndex rest (range.2 - range.1) | return none
  let stop := start + i
  let some s := Utf8.replaceRange (← get) start stop replaceWith | throw .charBoundary
  set s
  return some start

/-! ### Against the edit that gives back the new text -/

theorem slice_run_none {s : List Char} {pos : ℕ} (h : Utf8.sliceFrom s pos = none) :
    (slice pos).run s = .error .charBoundary := by
  simp [slice, h]
  rfl

theorem slice_run_some {s rest : List Char} {pos : ℕ} (h : Utf8.sliceFrom s pos = some rest) :
    (slice pos).run s = .ok (rest, s) := by
  simp [slice, h]
  rfl

/-- The edit in place is the one that gives back the new text; where there is none the text stays. -/
theorem replaceCharRange_run (s : List Char) (offset start stop : ℕ) (new : List Char) :
    (replaceCharRange offset (start, stop) new).run s =
      (Twitter.replaceCharRange s offset start stop new).map fun edited =>
        (edited.map Prod.fst, (edited.map Prod.snd).getD s) := by
  unfold replaceCharRange Twitter.replaceCharRange
  rcases hrest : Utf8.sliceFrom s offset with _ | rest
  · simp [slice_run_none hrest]
    rfl
  rcases hi : charIndexToByteIndex rest start with _ | i
  · simp [slice_run_some hrest, hi]
    rfl
  rcases hafter : Utf8.sliceFrom s (offset + i) with _ | after
  · simp [slice_run_some hrest, hi, hafter, slice_run_none hafter]
    rfl
  by_cases hlt : stop < start
  · simp [slice_run_some hrest, hi, hafter, slice_run_some hafter, hlt]
    rfl
  rcases hj : charIndexToByteIndex after (stop - start) with _ | j
  · simp [slice_run_some hrest, hi, hafter, slice_run_some hafter, hlt, hj]
    rfl
  rcases hnew : Utf8.replaceRange s (offset + i) (offset + i + j) new with _ | s'
  · simp [slice_run_some hrest, hi, hafter, slice_run_some hafter, hlt, hj, hnew]
    rfl
  · simp [slice_run_some hrest, hi, hafter, slice_run_some hafter, hlt, hj, hnew]
    rfl

/-! ### What the edit leaves -/

theorem replaceCharRange_run_append (done rest new : List Char) {start stop : ℕ} (h : start ≤ stop) :
    (replaceCharRange (Utf8.len done) (start, stop) new).run (done ++ rest) =
      if stop ≤ rest.length then
        .ok (some (Utf8.len (done ++ rest.take start)), done ++ rest.take start ++ new ++ rest.drop stop)
      else .ok (none, done ++ rest) := by
  rw [replaceCharRange_run, Twitter.replaceCharRange_eq done rest new h]
  split <;> rfl

/-- From any offset between two characters: nothing is done just when the text after it is too short, and
otherwise the range is replaced, between two positions at which the next edit may start. -/
theorem replaceCharRange_spec {s done rest : List Char} {offset a b : ℕ} (new : List Char)
    (hoffset : Utf8.splitAt s offset = some (done, rest)) (hab : a ≤ b) :
    ((replaceCharRange offset (a, b) new).run s = .ok (none, s) ↔ rest.length < b) ∧
    (b ≤ rest.length → ∃ pos s', (replaceCharRange offset (a, b) new).run s = .ok (some pos, s') ∧
      s' = done ++ rest.take a ++ new ++ rest.drop b ∧ pos = offset + Utf8.len (rest.take a) ∧
      Utf8.IsCharBoundary s' pos ∧ Utf8.IsCharBoundary s' (pos + Utf8.len new)) ∧
    ∀ e, (replaceCharRange offset (a, b) new).run s ≠ .error e := by
  obtain ⟨rfl, rfl⟩ := Utf8.splitAt_eq_some_iff.mp hoffset
  rw [replaceCharRange_run_append done rest new hab]
  by_cases hb : b ≤ rest.length
  · rw [if_pos hb]
    have hlen : Utf8.len done + Utf8.len (rest.take a) = Utf8.len (done ++ rest.take a) := by simp
    refine ⟨?_, ?_, ?_⟩
    · constructor
      · intro h
        simp at h
      · intro hlt
        omega
    · intro _
      refine ⟨_, _, rfl, rfl, hlen.symm, ?_, ?_⟩
      · have hstart := Utf8.isCharBoundary_append (done ++ rest.take a) (new ++ rest.drop b)
        rwa [← List.append_assoc] at hstart
      · have hstop := Utf8.isCharBoundary_append (done ++ rest.take a ++ new) (rest.drop b)
        rwa [Utf8.len_append] at hstop
    · intro e h
      contradiction
  · rw [if_neg hb]
    refine ⟨?_, ?_, ?_⟩
    · constructor
      · intro _
        omega
      · intro _
        rfl
    · intro h
      contradiction
    · intro e h
      contradiction

/-- The empty range between two characters of more than one byte. -/
theorem replaceCharRange_spec_end :
    ∃ pos s', (replaceCharRange 2 (1, 1) "!".toList).run "a é。".toList = .ok (some pos, s') ∧
      s' = "a é!。".toList ∧ pos = 4 ∧
      Utf8.IsCharBoundary s' pos ∧ Utf8.IsCharBoundary s' (pos + Utf8.len "!".toList) :=
  (replaceCharRange_spec "!".toList
    (show Utf8.splitAt "a é。".toList 2 = some ("a ".toList, "é。".toList) by rfl) (by decide)).2.1 (by decide)

end Pipitor.Util
