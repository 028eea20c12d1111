import Pipitor.Twitter.Entities

/-!
# Malformed entities

What `expand_urls` does with indices of any kind. A range that begins inside the one before it is turned down
only while its end is smaller than the number of bytes written so far; otherwise the end of the one before it is
subtracted from its start. `robust_iff` says which texts and entities get that far.
-/

namespace Pipitor.Twitter

/-- What a deserializer must not accept: a range that ends before it starts or beyond the text, or two ranges
neither of which ends where the other one starts or earlier. -/
def Rejectable (text : List Char) (urls : List Url) : Prop :=
  (∃ u ∈ urls, u.stop < u.start) ∨ (∃ u ∈ urls, text.length < u.stop) ∨
    ¬ urls.Pairwise fun u v => u.stop ≤ v.start ∨ v.stop ≤ u.start

/-- No subtraction goes below zero, no position lies inside a character or beyond the text, and what is
malformed is an error. -/
structure Robust (text : String) (entities : Option Entities) : Prop where
  no_overflow : expandUrls text entities ≠ .error .overflow
  charBoundary : expandUrls text entities ≠ .error .charBoundary
  rejects : ∀ e, entities = some e → Rejectable text.toList (e.urls ++ e.media) →
    ∃ message, expandUrls text entities = .error (.custom message)

/-! ### The loop, whatever the indices -/

theorem expandFrom_ne_charBoundary (urls : List Url) (done rest : List Char) (i : ℕ) :
    expandFrom urls (done ++ rest) (Utf8.len done) i ≠ .error .charBoundary := by
  induction urls generalizing done rest i with
  | nil => simp [expandFrom]
  | cons u urls ih =>
    rw [expandFrom_cons]
    split_ifs
    · simp
    · simp
    · simp
    · simp
    · exact ih _ _ _

/-- What the loop has accepted is well formed. -/
theorem ordered_of_expandFrom {urls : List Url} {done rest out : List Char} {i : ℕ}
    (h : expandFrom urls (done ++ rest) (Utf8.len done) i = .ok out) :
    (∀ u ∈ urls, i ≤ u.start ∧ u.start ≤ u.stop ∧ u.stop ≤ i + rest.length) ∧
      urls.Pairwise fun u v => u.stop ≤ v.start := by
  induction urls generalizing done rest i with
  | nil => simp
  | cons u urls ih =>
    rw [expandFrom_cons] at h
    split_ifs at h with hrange hbytes hstart hlen
    obtain ⟨hin, hordered⟩ := ih h
    constructor
    · intro v hv
      rcases List.mem_cons.mp hv with rfl | hv
      · omega
      · have := hin v hv
        rw [List.length_drop] at this
        omega
    · exact List.pairwise_cons.mpr ⟨fun v hv => (hin v hv).1, hordered⟩

/-! ### Where a subtraction goes below zero -/

/-- The text from the position `i` up to the end of the last URL, with the URLs written out. -/
def written (i : ℕ) (rest : List Char) : List Url → List Char
  | [] => []
  | u :: urls => rest.take (u.start - i) ++ u.chars ++ written u.stop (rest.drop (u.stop - i)) urls

/-- Where the last URL ends. -/
def endOf (i : ℕ) (urls : List Url) : ℕ := (urls.getLast?.map Url.stop).getD i

@[simp] theorem endOf_nil (i : ℕ) : endOf i [] = i := rfl

@[simp] theorem endOf_cons (i : ℕ) (u : Url) (urls : List Url) : endOf i (u :: urls) = endOf u.stop urls := by
  unfold endOf
  rw [List.getLast?_cons]
  cases urls.getLast? <;> rfl

section Underrun

variable (bytes i : ℕ) (rest : List Char) (before : List Url) (u : Url)

/-- The URL passes every check when the loop has gone through `before`, `bytes` bytes being written and the text
from the position `i` being left at its start. -/
structure Passes : Prop where
  range : u.start ≤ u.stop
  bytes : bytes + Utf8.len (written i rest before) ≤ u.stop
  start : endOf i before ≤ u.start
  stop : u.stop ≤ i + rest.length

/-- The URL passes the checks for its range and for an overlap, and starts before the last URL ends. -/
structure Underrun : Prop where
  range : u.start ≤ u.stop
  bytes : bytes + Utf8.len (written i rest before) ≤ u.stop
  start : u.start < endOf i before

/-- The loop comes to a URL that starts before the last one ends and is not turned down. -/
def Underruns (urls : List Url) : Prop :=
  ∃ before u after, urls = before ++ u :: after ∧ Underrun bytes i rest before u ∧
    ∀ before' v after', before = before' ++ v :: after' → Passes bytes i rest before' v

variable {bytes i rest before u}

theorem passes_cons {v : Url} (hstop : u.stop ≤ i + rest.length) (hi : i ≤ u.stop) :
    Passes bytes i rest (u :: before) v ↔
      Passes (bytes + Utf8.len (rest.take (u.start - i) ++ u.chars)) u.stop (rest.drop (u.stop - i)) before v := by
  have hlen : u.stop + (rest.drop (u.stop - i)).length = i + rest.length := by
    rw [List.length_drop]
    omega
  constructor
  · rintro ⟨hrange, hbytes, hstart, hend⟩
    rw [written, Utf8.len_append, ← Nat.add_assoc] at hbytes
    rw [endOf_cons] at hstart
    exact ⟨hrange, hbytes, hstart, hlen ▸ hend⟩
  · rintro ⟨hrange, hbytes, hstart, hend⟩
    refine ⟨hrange, ?_, ?_, hlen ▸ hend⟩
    · rwa [written, Utf8.len_append, ← Nat.add_assoc]
    · rwa [endOf_cons]

theorem underrun_cons {v : Url} : Underrun bytes i rest (u :: before) v ↔
    Underrun (bytes + Utf8.len (rest.take (u.start - i) ++ u.chars)) u.stop (rest.drop (u.stop - i)) before v := by
  constructor
  · rintro ⟨hrange, hbytes, hstart⟩
    rw [written, Utf8.len_append, ← Nat.add_assoc] at hbytes
    rw [endOf_cons] at hstart
    exact ⟨hrange, hbytes, hstart⟩
  · rintro ⟨hrange, hbytes, hstart⟩
    refine ⟨hrange, ?_, ?_⟩
    · rwa [written, Utf8.len_append, ← Nat.add_assoc]
    · rwa [endOf_cons]

theorem not_underruns_nil : ¬ Underruns bytes i rest [] := by
  rintro ⟨before, u, after, heq, -⟩
  simp at heq

theorem underruns_cons (urls : List Url) : Underruns bytes i rest (u :: urls) ↔
    (u.start ≤ u.stop ∧ bytes ≤ u.stop ∧ u.start < i) ∨
      Passes bytes i rest [] u ∧ Underruns (bytes + Utf8.len (rest.take (u.start - i) ++ u.chars)) u.stop
        (rest.drop (u.stop - i)) urls := by
  constructor
  · rintro ⟨before, v, after, heq, hunder, hpasses⟩
    cases before with
    | nil =>
      obtain ⟨rfl, rfl⟩ := List.cons.inj heq
      exact .inl ⟨hunder.range, hunder.bytes, hunder.start⟩
    | cons first before =>
      obtain ⟨rfl, rfl⟩ := List.cons.inj heq
      have hfirst : Passes bytes i rest [] u := hpasses [] u before rfl
      have hi : i ≤ u.stop := hfirst.start.trans hfirst.range
      refine .inr ⟨hfirst, before, v, after, rfl, underrun_cons.mp hunder, fun before' w after' h => ?_⟩
      exact (passes_cons hfirst.stop hi).mp (hpasses (u :: before') w after' (by rw [h]; rfl))
  · rintro (⟨hrange, hbytes, hstart⟩ | ⟨hfirst, before, v, after, rfl, hunder, hpasses⟩)
    · refine ⟨[], u, urls, rfl, ⟨hrange, hbytes, hstart⟩, fun before' w after' h => ?_⟩
      simp at h
    · have hi : i ≤ u.stop := hfirst.start.trans hfirst.range
      refine ⟨u :: before, v, after, rfl, underrun_cons.mpr hunder, fun before' w after' h => ?_⟩
      cases before' with
      | nil =>
        obtain ⟨rfl, -⟩ := List.cons.inj h
        exact hfirst
      | cons first before' =>
        obtain ⟨rfl, rfl⟩ := List.cons.inj h
        exact (passes_cons hfirst.stop hi).mpr (hpasses before' w after' rfl)

end Underrun

theorem expandFrom_eq_overflow_iff (urls : List Url) (done rest : List Char) (i : ℕ) :
    expandFrom urls (done ++ rest) (Utf8.len done) i = .error .overflow ↔
      Underruns (Utf8.len done) i rest urls := by
  induction urls generalizing done rest i with
  | nil => simp [expandFrom, not_underruns_nil]
  | cons u urls ih =>
    rw [expandFrom_cons, underruns_cons]
    have hpasses : Passes (Utf8.len done) i rest [] u ↔
        u.start ≤ u.stop ∧ Utf8.len done ≤ u.stop ∧ i ≤ u.start ∧ u.stop ≤ i + rest.length :=
      ⟨fun h => ⟨h.range, h.bytes, h.start, h.stop⟩, fun h => ⟨h.1, h.2.1, h.2.2.1, h.2.2.2⟩⟩
    rw [hpasses]
    split_ifs with hrange hbytes hstart hlen
    · simp
      omega
    · simp
      omega
    · refine iff_of_true rfl (.inl ?_)
      omega
    · simp
      omega
    · rw [ih, List.append_assoc done, Utf8.len_append done]
      constructor
      · exact fun h => .inr ⟨by omega, h⟩
      · rintro (h | ⟨-, h⟩)
        · omega
        · exact h

/-! ### The whole function -/

theorem expandUrls_eq_ok_of {text out : String} {e : Entities} (h : expandUrls text (some e) = .ok out) :
    ∃ chars, expandFrom (sortByStart e.merge) text.toList 0 0 = .ok chars := by
  rw [expandUrls] at h
  cases hloop : expandFrom (sortByStart e.merge) text.toList 0 0 with
  | ok chars => exact ⟨chars, rfl⟩
  | error err =>
    rw [hloop] at h
    cases h

theorem expandUrls_eq_error_iff {text : String} {e : Entities} {err : ExpandError} :
    expandUrls text (some e) = .error err ↔
      expandFrom (sortByStart e.merge) text.toList 0 0 = .error err := by
  rw [expandUrls]
  cases expandFrom (sortByStart e.merge) text.toList 0 0 with
  | ok chars =>
    change Except.ok (String.ofList chars) = Except.error err ↔ _
    simp
  | error err' =>
    change Except.error err' = Except.error err ↔ _
    simp

theorem not_rejectable_of_ok {text out : String} {e : Entities} (h : expandUrls text (some e) = .ok out) :
    ¬ Rejectable text.toList (e.urls ++ e.media) := by
  obtain ⟨chars, hloop⟩ := expandUrls_eq_ok_of h
  have hloop : expandFrom (sortByStart e.merge) ([] ++ text.toList) (Utf8.len []) 0 = .ok chars := hloop
  obtain ⟨hin, hordered⟩ := ordered_of_expandFrom hloop
  have hperm := sortByStart_perm e
  rintro (⟨u, hu, hrange⟩ | ⟨u, hu, hlen⟩ | hapart)
  · have := hin u (hperm.mem_iff.mpr hu)
    omega
  · have := hin u (hperm.mem_iff.mpr hu)
    omega
  · refine hapart (hperm.pairwise (hordered.imp Or.inl) fun h => h.symm)

/-- **Which entities `expand_urls` withstands**: all but those with which it comes to a range that starts inside the
one before it and ends no earlier than the number of bytes written so far. -/
theorem robust_iff (text : String) (entities : Option Entities) : Robust text entities ↔
    ∀ e, entities = some e → ¬ Underruns 0 0 text.toList (sortByStart e.merge) := by
  cases entities with
  | none =>
    refine iff_of_true ⟨?_, ?_, ?_⟩ ?_
    · simp [expandUrls]
    · simp [expandUrls]
    · simp
    · simp
  | some e =>
    have hoverflow : expandUrls text (some e) = .error .overflow ↔
        Underruns 0 0 text.toList (sortByStart e.merge) :=
      expandUrls_eq_error_iff.trans (expandFrom_eq_overflow_iff (sortByStart e.merge) [] text.toList 0)
    have hboundary : expandUrls text (some e) ≠ .error .charBoundary := fun h =>
      expandFrom_ne_charBoundary (sortByStart e.merge) [] text.toList 0 (expandUrls_eq_error_iff.mp h)
    constructor
    · rintro ⟨hno, -, -⟩ e' ⟨⟩ hunder
      exact hno (hoverflow.mpr hunder)
    · intro hunder
      have hno : expandUrls text (some e) ≠ .error .overflow := fun h => hunder e rfl (hoverflow.mp h)
      refine ⟨hno, hboundary, ?_⟩
      rintro e' ⟨⟩ hmalformed
      cases hresult : expandUrls text (some e) with
      | ok out => exact absurd hmalformed (not_rejectable_of_ok hresult)
      | error err =>
        cases err with
        | custom message => exact ⟨message, rfl⟩
        | charBoundary => exact absurd hresult hboundary
        | overflow => exact absurd hresult hno

/-- A link that stands for a single letter, and one that starts inside of it and ends after the bytes written. -/
def shortLink : Url := ⟨"x", (0, 10)⟩

def insideLink : Url := ⟨"y", (5, 12)⟩

theorem not_robust_insideLink :
    expandUrls "https://t.co/a" (some ⟨[shortLink, insideLink], []⟩) = .error .overflow ∧
      ¬ ∀ text entities, Robust text entities := by
  have hoverflow : expandUrls "https://t.co/a" (some ⟨[shortLink, insideLink], []⟩) = .error .overflow := by
    decide
  exact ⟨hoverflow, fun h => (h _ _).no_overflow hoverflow⟩

end Pipitor.Twitter
