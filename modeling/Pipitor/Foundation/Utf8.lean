import Mathlib.Data.List.Basic
import Mathlib.Data.Option.Basic

/-!
# Positions in UTF-8 text

A text is the list of its characters; a position in it is a number of bytes, which has to lie between two
characters. `replaceRange_append` is what an edit of such a text comes to.
-/

namespace Utf8

/-- The number of bytes. -/
def len : List Char → ℕ
  | [] => 0
  | c :: cs => c.utf8Size + len cs

/-- The parts before and after a position, or `none` if it is not between two characters. -/
def splitAt : List Char → ℕ → Option (List Char × List Char)
  | cs, 0 => some ([], cs)
  | [], _ + 1 => none
  | c :: cs, n + 1 =>
    if c.utf8Size ≤ n + 1 then (splitAt cs (n + 1 - c.utf8Size)).map (Prod.map (c :: ·) id) else none

/-- What follows a position. -/
def sliceFrom (cs : List Char) (pos : ℕ) : Option (List Char) := (splitAt cs pos).map Prod.snd

/-- The characters from `start` to `stop` replaced by others. -/
def replaceRange (cs : List Char) (start stop : ℕ) (replaceWith : List Char) : Option (List Char) := do
  guard (start ≤ stop)
  let (before, rest) ← splitAt cs start
  let (_, after) ← splitAt rest (stop - start)
  return before ++ replaceWith ++ after

@[simp]
theorem len_nil : len [] = 0 := rfl

@[simp]
theorem len_cons (c : Char) (cs : List Char) : len (c :: cs) = c.utf8Size + len cs := rfl

@[simp]
theorem len_append (cs ds : List Char) : len (cs ++ ds) = len cs + len ds := by
  induction cs with
  | nil => simp
  | cons c cs ih => simp [ih, Nat.add_assoc]

theorem splitAt_len_append (cs ds : List Char) : splitAt (cs ++ ds) (len cs) = some (cs, ds) := by
  induction cs with
  | nil => cases ds <;> rfl
  | cons c cs ih =>
    have hpos := c.utf8Size_pos
    obtain ⟨n, hn⟩ : ∃ n, len (c :: cs) = n + 1 := ⟨len (c :: cs) - 1, by simp; omega⟩
    have hle : c.utf8Size ≤ n + 1 := by rw [← hn]; simp
    have hrest : n + 1 - c.utf8Size = len cs := by rw [← hn]; simp
    rw [hn, List.cons_append, splitAt, if_pos hle, hrest, ih]
    rfl

theorem splitAt_eq_some_iff {cs before rest : List Char} {pos : ℕ} :
    splitAt cs pos = some (before, rest) ↔ cs = before ++ rest ∧ len before = pos := by
  constructor
  · intro h
    fun_induction splitAt cs pos generalizing before rest with
    | case1 cs => simp_all
    | case2 n => contradiction
    | case3 c cs n hle ih =>
      obtain ⟨⟨before', rest'⟩, hsplit, heq⟩ := Option.map_eq_some_iff.mp h
      obtain ⟨rfl, rfl⟩ := Prod.mk.inj heq
      obtain ⟨rfl, hlen⟩ := ih hsplit
      refine ⟨rfl, ?_⟩
      rw [len_cons, hlen]
      omega
    | case4 c cs n hle => contradiction
  · rintro ⟨rfl, rfl⟩
    exact splitAt_len_append before rest

/-- A position between two characters, or at an end. -/
def IsCharBoundary (cs : List Char) (pos : ℕ) : Prop := ∃ before rest, splitAt cs pos = some (before, rest)

theorem isCharBoundary_append (cs ds : List Char) : IsCharBoundary (cs ++ ds) (len cs) :=
  ⟨cs, ds, splitAt_len_append cs ds⟩

theorem sliceFrom_len_append (cs ds : List Char) : sliceFrom (cs ++ ds) (len cs) = some ds := by
  rw [sliceFrom, splitAt_len_append]
  rfl

theorem replaceRange_append (before old after new : List Char) :
    replaceRange (before ++ (old ++ after)) (len before) (len before + len old) new =
      some (before ++ new ++ after) := by
  simp [replaceRange, splitAt_len_append]

end Utf8
