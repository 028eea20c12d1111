import Mathlib.Data.List.Sort
import Pipitor.Foundation.Utf8
import Pipitor.Manifest

/-!
# The entities of a tweet

`twitter/models.rs` and the two functions of `util.rs` under it: the links of a tweet's text written out.
The loop counts the text that it has still to read in characters and the text that it has already rewritten
in bytes, and compares the two.
-/

namespace Pipitor.Twitter

/-- `models::Url`. -/
structure Url where
  expandedUrl : String
  indices : ℕ × ℕ
deriving DecidableEq, Repr

namespace Url

def start (u : Url) : ℕ := u.indices.1

def stop (u : Url) : ℕ := u.indices.2

def chars (u : Url) : List Char := u.expandedUrl.toList

end Url

structure Entities where
  urls : List Url
  media : List Url
deriving DecidableEq, Repr

/-- What an error of the deserializer says, or where it panics: a position inside a character, or a
subtraction below zero. -/
inductive ExpandError
  | custom (message : String)
  | charBoundary
  | overflow
deriving DecidableEq, Repr

/-! ### Characters and bytes -/

/-- The loop of `char_index_to_byte_index`, at the byte `bi` after `ci` characters. -/
def charIndexToByteIndexFrom (charIndex : ℕ) : List Char → ℕ → ℕ → Option ℕ
  | [], _, _ => none
  | c :: cs, bi, ci =>
    if ci + 1 = charIndex then some (bi + c.utf8Size)
    else charIndexToByteIndexFrom charIndex cs (bi + c.utf8Size) (ci + 1)

def charIndexToByteIndex (s : List Char) (charIndex : ℕ) : Option ℕ :=
  if charIndex = 0 then some 0 else charIndexToByteIndexFrom charIndex s 0 0

/-- `replace_char_range`: where the range starts, in bytes, and the new text; nothing if the text ends
before the range does. -/
def replaceCharRange (s : List Char) (baseByteOffset start stop : ℕ) (replaceWith : List Char) :
    Except ExpandError (Option (ℕ × List Char)) := do
  let some rest := Utf8.sliceFrom s baseByteOffset | .error .charBoundary
  let some i := charIndexToByteIndex rest start | return none
  let start' := baseByteOffset + i
  let some rest := Utf8.sliceFrom s start' | .error .charBoundary
  if stop < start then .error .overflow
  let some i := charIndexToByteIndex rest (stop - start) | return none
  let some s := Utf8.replaceRange s start' (start' + i) replaceWith | .error .charBoundary
  return some (start', s)

/-! ### The loop -/

/-- The loop of `expand_urls`: `byteOffset` is where the last expansion ends in the new text, `charOffset`
where its URL ended in the old one. -/
def expandFrom : List Url → List Char → ℕ → ℕ → Except ExpandError (List Char)
  | [], text, _, _ => .ok text
  | url :: urls, text, byteOffset, charOffset => do
    let (s, e) := url.indices
    if s > e then .error (.custom "invalid indices (start > end)")
    if e < byteOffset then .error (.custom "url indices overlap")
    if s < charOffset ∨ e < charOffset then .error .overflow
    let some (i, text) ← replaceCharRange text byteOffset (s - charOffset) (e - charOffset) url.chars
      | .error (.custom "url indices out of range")
    expandFrom urls text (i + Utf8.len url.chars) e

/-- The URLs and the media in the order in which they are put together. -/
def Entities.merge (e : Entities) : List Url :=
  if e.urls.length > e.media.length then e.urls ++ e.media else e.media ++ e.urls

def sortByStart (urls : List Url) : List Url := urls.insertionSort fun u v => u.start ≤ v.start

def expandUrls (text : String) (entities : Option Entities) : Except ExpandError String :=
  match entities with
  | none => .ok text
  | some e => String.ofList <$> expandFrom (sortByStart e.merge) text.toList 0 0

/-! ### Tweets -/

/-- The `ExtendedTweet` of the deserializer. -/
structure ExtendedTweet where
  fullText : String
  entities : Option Entities := none

/-- The `Tweet` of the deserializer, where a missing field has taken its default. -/
structure TweetData where
  id : Int64
  text : String
  inReplyToStatusId : Option Int64 := none
  inReplyToUserId : Option Int64 := none
  user : Int64
  extendedTweet : Option ExtendedTweet := none
  quotedStatus : Option Int64 := none
  retweetedStatus : Option Unit := none
  entities : Option Entities := none

/-- The text of the tweet with the entities that belong to it. -/
def TweetData.source (t : TweetData) : String × Option Entities :=
  match t.extendedTweet with
  | none => (t.text, t.entities)
  | some e => (e.fullText, e.entities)

/-- `Tweet::deserialize`. -/
def TweetData.tweet (t : TweetData) : Except ExpandError Tweet := do
  let text ← expandUrls t.source.1 t.source.2
  return { id := t.id, text, inReplyToStatusId := t.inReplyToStatusId, inReplyToUserId := t.inReplyToUserId,
           user := t.user, quotedStatus := t.quotedStatus, retweetedStatus := t.retweetedStatus }

/-! ### One step of the loop -/

theorem charIndexToByteIndexFrom_eq (s : List Char) (bi ci k : ℕ) (hci : ci < k) :
    charIndexToByteIndexFrom k s bi ci =
      if k - ci ≤ s.length then some (bi + Utf8.len (s.take (k - ci))) else none := by
  induction s generalizing bi ci with
  | nil =>
    have hne : ¬ k - ci ≤ 0 := by omega
    simp [charIndexToByteIndexFrom, hne]
  | cons c cs ih =>
    obtain ⟨n, hn⟩ : ∃ n, k - ci = n + 1 := ⟨k - ci - 1, by omega⟩
    by_cases hk : ci + 1 = k
    · have hone : n = 0 := by omega
      simp [charIndexToByteIndexFrom, hk, hn, hone]
    · have hrest : k - (ci + 1) = n := by omega
      simp [charIndexToByteIndexFrom, hk, hn, ih (bi + c.utf8Size) (ci + 1) (by omega), hrest, Nat.add_assoc]

theorem charIndexToByteIndex_eq (s : List Char) (k : ℕ) :
    charIndexToByteIndex s k = if k ≤ s.length then some (Utf8.len (s.take k)) else none := by
  rcases Nat.eq_zero_or_pos k with rfl | hk
  · simp [charIndexToByteIndex]
  · have hne : k ≠ 0 := by omega
    simp [charIndexToByteIndex, hne, charIndexToByteIndexFrom_eq s 0 0 k hk]

theorem replaceCharRange_eq {start stop : ℕ} (done rest new : List Char) (h : start ≤ stop) :
    replaceCharRange (done ++ rest) (Utf8.len done) start stop new =
      .ok (if stop ≤ rest.length then
        some (Utf8.len (done ++ rest.take start), done ++ rest.take start ++ new ++ rest.drop stop)
      else none) := by
  have hnot : ¬ stop < start := by omega
  by_cases hstart : start ≤ rest.length
  · -- the text up to the range, the range and the text after it
    obtain ⟨before, after, rfl, hbefore⟩ : ∃ before after, rest = before ++ after ∧ before.length = start :=
      ⟨rest.take start, rest.drop start, (List.take_append_drop _ _).symm, by simp; omega⟩
    subst hbefore
    have hslice : Utf8.sliceFrom (done ++ (before ++ after)) (Utf8.len done + Utf8.len before) = some after := by
      rw [← List.append_assoc, ← Utf8.len_append, Utf8.sliceFrom_len_append]
    by_cases hstop : stop - before.length ≤ after.length
    · have hreplace := Utf8.replaceRange_append (done ++ before) (after.take (stop - before.length))
        (after.drop (stop - before.length)) new
      rw [List.take_append_drop, List.append_assoc, Utf8.len_append] at hreplace
      have hle : stop ≤ before.length + after.length := by omega
      simp [replaceCharRange, Utf8.sliceFrom_len_append, charIndexToByteIndex_eq, hslice, hnot, hstop, hle,
        hreplace, List.drop_append, List.drop_eq_nil_of_le h]
      rfl
    · have hle : ¬ stop ≤ before.length + after.length := by omega
      simp [replaceCharRange, Utf8.sliceFrom_len_append, charIndexToByteIndex_eq, hslice, hnot, hstop, hle]
      rfl
  · have hstop : ¬ stop ≤ rest.length := by omega
    simp [replaceCharRange, Utf8.sliceFrom_len_append, charIndexToByteIndex_eq, hstart, hstop]
    rfl

/-! ### The text with its URLs written out -/

/-- What stands for the URLs that start at a position. -/
def inserted (urls : List Url) (i : ℕ) : List Char := (urls.filter fun u => u.start = i).flatMap Url.chars

/-- A character that belongs to a URL. -/
def Covered (urls : List Url) (i : ℕ) : Prop := ∃ u ∈ urls, u.start ≤ i ∧ i < u.stop

instance instDecidableCovered (urls : List Url) (i : ℕ) : Decidable (Covered urls i) :=
  inferInstanceAs (Decidable (∃ u ∈ urls, u.start ≤ i ∧ i < u.stop))

/-- The characters from the position `i` on: every URL is replaced by what it stands for and the other
characters are kept. -/
def expansion (urls : List Url) : ℕ → List Char → List Char
  | i, [] => inserted urls i
  | i, c :: cs => inserted urls i ++ (if Covered urls i then [] else [c]) ++ expansion urls (i + 1) cs

theorem inserted_cons (u : Url) (urls : List Url) (i : ℕ) :
    inserted (u :: urls) i = (if u.start = i then u.chars else []) ++ inserted urls i := by
  by_cases h : u.start = i <;> simp [inserted, h]

theorem covered_cons {u : Url} {urls : List Url} {i : ℕ} :
    Covered (u :: urls) i ↔ u.start ≤ i ∧ i < u.stop ∨ Covered urls i := by
  simp [Covered]

theorem inserted_eq_nil {urls : List Url} {i : ℕ} (h : ∀ u ∈ urls, u.start ≠ i) : inserted urls i = [] := by
  have hnone : urls.filter (fun u => u.start = i) = [] :=
    List.filter_eq_nil_iff.mpr fun u hu => by simpa using h u hu
  rw [inserted, hnone, List.flatMap_nil]

theorem expansion_congr {urls urls' : List Url} {i : ℕ} (cs : List Char)
    (hins : ∀ j, i ≤ j → inserted urls j = inserted urls' j)
    (hcov : ∀ j, i ≤ j → (Covered urls j ↔ Covered urls' j)) : expansion urls i cs = expansion urls' i cs := by
  induction cs generalizing i with
  | nil => exact hins i le_rfl
  | cons c cs ih =>
    simp only [expansion, hins i le_rfl, hcov i le_rfl]
    rw [ih (fun j hj => hins j (by omega)) fun j hj => hcov j (by omega)]

theorem expansion_kept {urls : List Url} {i : ℕ} (before cs : List Char)
    (h : ∀ u ∈ urls, i + before.length ≤ u.start) :
    expansion urls i (before ++ cs) = before ++ expansion urls (i + before.length) cs := by
  induction before generalizing i with
  | nil => rfl
  | cons c before ih =>
    have hins : inserted urls i = [] :=
      inserted_eq_nil fun u hu => by have := h u hu; simp at this; omega
    have hcov : ¬ Covered urls i := by
      rintro ⟨u, hu, hle, -⟩
      have := h u hu
      simp at this
      omega
    rw [List.cons_append, expansion, hins, if_neg hcov, ih fun u hu => by have := h u hu; simp at this; omega]
    simp [Nat.add_comm, Nat.add_left_comm]

theorem expansion_covered {urls : List Url} {i : ℕ} (range cs : List Char)
    (hcov : ∀ j, i ≤ j → j < i + range.length → Covered urls j)
    (hins : ∀ j, i ≤ j → j < i + range.length → inserted urls j = []) :
    expansion urls i (range ++ cs) = expansion urls (i + range.length) cs := by
  induction range generalizing i with
  | nil => rfl
  | cons c range ih =>
    have hlen : (c :: range).length = range.length + 1 := rfl
    rw [List.cons_append, expansion, hins i le_rfl (by omega), if_pos (hcov i le_rfl (by omega)),
      ih (fun j h h' => hcov j (by omega) (by omega)) fun j h h' => hins j (by omega) (by omega)]
    simp [Nat.add_comm, Nat.add_left_comm]

theorem expansion_drop_head {u : Url} {urls : List Url} {i : ℕ} (cs : List Char) (hstart : u.start < i)
    (hstop : u.stop ≤ i) : expansion (u :: urls) i cs = expansion urls i cs := by
  refine expansion_congr cs (fun j hj => ?_) fun j hj => ?_
  · rw [inserted_cons, if_neg (by omega), List.nil_append]
  · rw [covered_cons]
    exact or_iff_right (by omega)

theorem expansion_start {u : Url} {urls : List Url} (range cs : List Char)
    (hrange : u.start + range.length = u.stop) (hle : ∀ v ∈ urls, u.stop ≤ v.start) :
    expansion (u :: urls) u.start (range ++ cs) = u.chars ++ expansion urls u.stop cs := by
  cases range with
  | nil =>
    have hstop : u.stop = u.start := by simpa using hrange.symm
    rw [List.nil_append, hstop]
    cases cs with
    | nil => rw [expansion, inserted_cons, if_pos rfl, expansion]
    | cons c cs =>
      have hcov : Covered (u :: urls) u.start ↔ Covered urls u.start := by
        rw [covered_cons]
        exact or_iff_right (by omega)
      simp only [expansion, inserted_cons, if_pos, hcov, List.append_assoc]
      rw [expansion_drop_head cs (Nat.lt_succ_self _) (by omega)]
  | cons c range =>
    have hlen : (c :: range).length = range.length + 1 := rfl
    rw [hlen] at hrange
    have hcov : ∀ j, u.start ≤ j → j < u.stop → Covered (u :: urls) j := fun j h h' =>
      covered_cons.mpr (.inl ⟨h, h'⟩)
    have hins : ∀ j, j < u.stop → inserted urls j = [] := fun j hj =>
      inserted_eq_nil fun v hv => by have := hle v hv; omega
    have hrest : ∀ j, u.start + 1 ≤ j → j < u.start + 1 + range.length → inserted (u :: urls) j = [] := by
      intro j h h'
      rw [inserted_cons, if_neg (by omega), hins j (by omega), List.nil_append]
    rw [List.cons_append, expansion, inserted_cons, if_pos rfl, hins _ (by omega),
      if_pos (hcov _ le_rfl (by omega)),
      expansion_covered range cs (fun j h h' => hcov j (by omega) (by omega)) hrest,
      expansion_drop_head cs (by omega) (by omega)]
    have hstop : u.start + 1 + range.length = u.stop := by omega
    rw [hstop, List.append_nil, List.append_nil]

theorem expansion_cons {u : Url} {urls : List Url} {i : ℕ} {cs : List Char} (hi : i ≤ u.start)
    (hu : u.start ≤ u.stop) (hlen : u.stop ≤ i + cs.length) (hle : ∀ v ∈ urls, u.stop ≤ v.start) :
    expansion (u :: urls) i cs =
      cs.take (u.start - i) ++ u.chars ++ expansion urls u.stop (cs.drop (u.stop - i)) := by
  obtain ⟨before, rest, rfl, hbefore⟩ : ∃ before rest, cs = before ++ rest ∧ before.length = u.start - i :=
    ⟨cs.take (u.start - i), cs.drop (u.start - i), (List.take_append_drop _ _).symm, by simp; omega⟩
  obtain ⟨range, after, rfl, hrange⟩ : ∃ range after, rest = range ++ after ∧ range.length = u.stop - u.start :=
    ⟨rest.take (u.stop - u.start), rest.drop (u.stop - u.start), (List.take_append_drop _ _).symm,
      by simp at hlen ⊢; omega⟩
  have hstart : i + before.length = u.start := by omega
  have hkept : ∀ v ∈ u :: urls, i + before.length ≤ v.start := by
    intro v hv
    rcases List.mem_cons.mp hv with rfl | hv
    · omega
    · have := hle v hv
      omega
  have hdrop : u.stop - i = before.length + range.length := by omega
  rw [expansion_kept before _ hkept, hstart, expansion_start range after (by omega) hle, hdrop, ← hbefore]
  simp

theorem expansion_nil (i : ℕ) (cs : List Char) : expansion [] i cs = cs := by
  induction cs generalizing i with
  | nil => rfl
  | cons c cs ih => simp [expansion, inserted, Covered, ih]

theorem filter_start_length {urls : List Url} (h : (urls.map Url.start).Nodup) (i : ℕ) :
    (urls.filter fun u => u.start = i).length ≤ 1 := by
  have hnodup : ((urls.filter fun u => u.start = i).map Url.start).Nodup :=
    h.sublist (List.filter_sublist.map _)
  have hall : ∀ s ∈ (urls.filter fun u => u.start = i).map Url.start, s = i := by
    intro s hs
    obtain ⟨u, hu, rfl⟩ := List.mem_map.mp hs
    simpa using (List.mem_filter.mp hu).2
  generalize hl : (urls.filter fun u => u.start = i) = l at hnodup hall
  rcases l with _ | ⟨u, _ | ⟨v, rest⟩⟩
  · simp
  · simp
  · have hu := hall u.start (by simp)
    have hv := hall v.start (by simp)
    simp [hu, hv] at hnodup

theorem expansion_perm {urls urls' : List Url} (hperm : urls.Perm urls') (h : (urls.map Url.start).Nodup)
    (i : ℕ) (cs : List Char) : expansion urls i cs = expansion urls' i cs := by
  refine expansion_congr cs (fun j _ => ?_) fun j _ => ?_
  · have hfilter := hperm.filter fun u => u.start = j
    have hlen := filter_start_length h j
    have heq : urls.filter (fun u => u.start = j) = urls'.filter fun u => u.start = j := by
      rcases Nat.le_one_iff_eq_zero_or_eq_one.mp hlen with hzero | hone
      · rw [List.length_eq_zero_iff.mp hzero] at hfilter ⊢
        exact (List.nil_perm.mp hfilter).symm
      · obtain ⟨u, hu⟩ := List.length_eq_one_iff.mp hone
        rw [hu] at hfilter ⊢
        exact List.singleton_perm.mp hfilter
    rw [inserted, inserted, heq]
  · exact exists_congr fun u => and_congr_left fun _ => hperm.mem_iff

/-! ### The loop -/

/-- The bytes of the new text from the position `i` of the old one up to the end of a URL. -/
def bytesTo (urls : List Url) (i : ℕ) (cs : List Char) (u : Url) : ℕ :=
  Utf8.len (expansion (urls.filter fun v => v.start ≤ u.start) i (cs.take (u.stop - i)))

/-- What the loop asks for when `byteOffset` bytes are written and the characters from the position `i` on
are left: the URLs come one after the other, and each ends at a position in the old text that is not
smaller than the number of bytes of the new text up to the URL before it. -/
structure Fits (byteOffset i : ℕ) (cs : List Char) (urls : List Url) : Prop where
  ahead : ∀ u ∈ urls, i ≤ u.start ∧ byteOffset ≤ u.stop
  apart : ∀ u ∈ urls, ∀ v ∈ urls, u.start < v.start →
    u.stop ≤ v.start ∧ byteOffset + bytesTo urls i cs u ≤ v.stop

theorem expandFrom_cons (u : Url) (urls : List Url) (done rest : List Char) (i : ℕ) :
    expandFrom (u :: urls) (done ++ rest) (Utf8.len done) i =
      if u.stop < u.start then .error (.custom "invalid indices (start > end)")
      else if u.stop < Utf8.len done then .error (.custom "url indices overlap")
      else if u.start < i then .error .overflow
      else if i + rest.length < u.stop then .error (.custom "url indices out of range")
      else expandFrom urls (done ++ rest.take (u.start - i) ++ u.chars ++ rest.drop (u.stop - i))
        (Utf8.len (done ++ rest.take (u.start - i) ++ u.chars)) u.stop := by
  obtain ⟨text, s, e⟩ := u
  change _ = if e < s then _ else if e < Utf8.len done then _ else if s < i then _
    else if i + rest.length < e then _ else _
  by_cases hrange : e < s
  · simp only [expandFrom, gt_iff_lt, hrange, if_true]
    rfl
  by_cases hbytes : e < Utf8.len done
  · simp only [expandFrom, gt_iff_lt, hrange, hbytes, if_true, if_false]
    rfl
  by_cases hstart : s < i
  · simp only [expandFrom, gt_iff_lt, hrange, hbytes, hstart, true_or, if_true, if_false]
    rfl
  have hend : ¬ e < i := by omega
  have hsub : s - i ≤ e - i := by omega
  by_cases hlen : i + rest.length < e
  · have hle : ¬ e - i ≤ rest.length := by omega
    simp only [expandFrom, gt_iff_lt, hrange, hbytes, hstart, hend, or_self, hlen,
      replaceCharRange_eq done rest _ hsub, hle, if_true, if_false]
    rfl
  · have hle : e - i ≤ rest.length := by omega
    simp only [expandFrom, gt_iff_lt, hrange, hbytes, hstart, hend, or_self, hlen,
      replaceCharRange_eq done rest _ hsub, hle, if_true, if_false, Utf8.len_append]
    rfl

theorem expandFrom_cons_eq_ok {u : Url} {urls : List Url} {done rest out : List Char} {i : ℕ}
    (hu : u.start ≤ u.stop) (hlen : u.stop ≤ i + rest.length) :
    expandFrom (u :: urls) (done ++ rest) (Utf8.len done) i = .ok out ↔
      Utf8.len done ≤ u.stop ∧ i ≤ u.start ∧
        expandFrom urls (done ++ rest.take (u.start - i) ++ u.chars ++ rest.drop (u.stop - i))
          (Utf8.len (done ++ rest.take (u.start - i) ++ u.chars)) u.stop = .ok out := by
  rw [expandFrom_cons, if_neg (not_lt.mpr hu)]
  by_cases hbytes : u.stop < Utf8.len done
  · rw [if_pos hbytes]
    refine iff_of_false ?_ fun h => absurd hbytes (not_lt.mpr h.1)
    simp
  by_cases hstart : u.start < i
  · rw [if_neg hbytes, if_pos hstart]
    refine iff_of_false ?_ fun h => absurd hstart (not_lt.mpr h.2.1)
    simp
  rw [if_neg hbytes, if_neg hstart, if_neg (not_lt.mpr hlen)]
  exact ⟨fun h => ⟨not_lt.mp hbytes, not_lt.mp hstart, h⟩, fun h => h.2.2⟩

/-- URLs in the order in which the loop takes them. -/
abbrev Ascending (urls : List Url) : Prop := urls.Pairwise fun u v => u.start < v.start

/-- The URLs lie in the text that is left. -/
abbrev Within (i : ℕ) (cs : List Char) (urls : List Url) : Prop :=
  ∀ u ∈ urls, u.start ≤ u.stop ∧ u.stop ≤ i + cs.length

theorem bytesTo_head {u : Url} {urls : List Url} {i : ℕ} {cs : List Char} (hi : i ≤ u.start)
    (hin : u.start ≤ u.stop ∧ u.stop ≤ i + cs.length) (hasc : Ascending (u :: urls)) :
    bytesTo (u :: urls) i cs u = Utf8.len (cs.take (u.start - i)) + Utf8.len u.chars := by
  have hnone : urls.filter (fun v => v.start ≤ u.start) = [] :=
    List.filter_eq_nil_iff.mpr fun v hv => by simpa using (List.pairwise_cons.mp hasc).1 v hv
  have hlen : u.stop ≤ i + (cs.take (u.stop - i)).length := by simp; omega
  rw [bytesTo, List.filter_cons_of_pos (by simp), hnone, expansion_cons hi hin.1 hlen (by simp), expansion_nil,
    List.take_take, List.drop_take, Nat.min_eq_left (by omega), Nat.sub_self]
  simp

theorem bytesTo_tail {u v : Url} {urls : List Url} {i : ℕ} {cs : List Char} (hi : i ≤ u.start)
    (hin : Within i cs (u :: urls)) (huv : u.start ≤ v.start) (hle : ∀ w ∈ urls, u.stop ≤ w.start)
    (hv : v ∈ urls) :
    bytesTo (u :: urls) i cs v =
      Utf8.len (cs.take (u.start - i)) + Utf8.len u.chars + bytesTo urls u.stop (cs.drop (u.stop - i)) v := by
  have hu := hin u (by simp)
  have hv' := hin v (by simp [hv])
  have huv' := hle v hv
  have hlen : u.stop ≤ i + (cs.take (v.stop - i)).length := by simp; omega
  rw [bytesTo, List.filter_cons_of_pos (by simpa using huv),
    expansion_cons hi hu.1 hlen fun w hw => hle w (List.mem_of_mem_filter hw), List.take_take,
    List.drop_take, Nat.min_eq_left (by omega), bytesTo]
  have hsub : v.stop - i - (u.stop - i) = v.stop - u.stop := by omega
  simp [hsub, Nat.add_assoc]

theorem fits_cons {u : Url} {urls : List Url} {byteOffset i : ℕ} {cs : List Char}
    (hasc : Ascending (u :: urls)) (hin : Within i cs (u :: urls)) :
    Fits byteOffset i cs (u :: urls) ↔
      byteOffset ≤ u.stop ∧ i ≤ u.start ∧
        Fits (byteOffset + Utf8.len (cs.take (u.start - i)) + Utf8.len u.chars) u.stop
          (cs.drop (u.stop - i)) urls := by
  have hlt := (List.pairwise_cons.mp hasc).1
  have hmem : ∀ {v}, v ∈ urls → v ∈ u :: urls := fun hv => List.mem_cons_of_mem _ hv
  constructor
  · intro h
    obtain ⟨hi, hbytes⟩ := h.ahead u (by simp)
    have hle : ∀ v ∈ urls, u.stop ≤ v.start := fun v hv => (h.apart u (by simp) v (hmem hv) (hlt v hv)).1
    refine ⟨hbytes, hi, fun v hv => ⟨hle v hv, ?_⟩, fun v hv w hw hvw => ?_⟩
    · have := (h.apart u (by simp) v (hmem hv) (hlt v hv)).2
      rwa [bytesTo_head hi (hin u (by simp)) hasc, ← Nat.add_assoc] at this
    · have := h.apart v (hmem hv) w (hmem hw) hvw
      rw [bytesTo_tail hi hin (hlt v hv).le hle hv] at this
      exact ⟨this.1, by omega⟩
  · rintro ⟨hbytes, hi, h⟩
    have hle : ∀ v ∈ urls, u.stop ≤ v.start := fun v hv => (h.ahead v hv).1
    refine ⟨fun v hv => ?_, fun v hv w hw hvw => ?_⟩
    · rcases List.mem_cons.mp hv with rfl | hv
      · exact ⟨hi, hbytes⟩
      · have := h.ahead v hv
        have := hlt v hv
        exact ⟨by omega, by omega⟩
    · have hw' : w ∈ urls := by
        rcases List.mem_cons.mp hw with rfl | hw
        · rcases List.mem_cons.mp hv with rfl | hv
          · omega
          · have := hlt v hv
            omega
        · exact hw
      rcases List.mem_cons.mp hv with rfl | hv
      · rw [bytesTo_head hi (hin v (by simp)) hasc]
        have := h.ahead w hw'
        exact ⟨this.1, by omega⟩
      · rw [bytesTo_tail hi hin (hlt v hv).le hle hv]
        have := h.apart v hv w hw' hvw
        exact ⟨this.1, by omega⟩

/-- The loop, from any point of it: it ends well exactly if the URLs fit, and then with the expansion. -/
theorem expandFrom_eq_ok_iff {urls : List Url} {done rest out : List Char} {i : ℕ} (hasc : Ascending urls)
    (hin : Within i rest urls) :
    expandFrom urls (done ++ rest) (Utf8.len done) i = .ok out ↔
      Fits (Utf8.len done) i rest urls ∧ out = done ++ expansion urls i rest := by
  induction urls generalizing done rest i with
  | nil =>
    have hfits : Fits (Utf8.len done) i rest [] := ⟨by simp, by simp⟩
    simp [expandFrom, hfits, expansion_nil, eq_comm]
  | cons u urls ih =>
    have hu := hin u (by simp)
    rw [expandFrom_cons_eq_ok hu.1 hu.2, fits_cons hasc hin]
    by_cases hi : i ≤ u.start
    · have hin' : Within u.stop (rest.drop (u.stop - i)) urls := by
        intro v hv
        have := hin v (by simp [hv])
        simp
        omega
      rw [ih hasc.of_cons hin']
      simp only [hi, true_and, and_assoc, Utf8.len_append]
      refine and_congr_right fun _ => and_congr_right fun hfits => ?_
      rw [expansion_cons hi hu.1 hu.2 fun v hv => (hfits.ahead v hv).1]
      simp
    · simp [hi]

/-! ### The whole function -/

/-- The indices are those of disjoint ranges of the text, no two of which start together. -/
structure WellFormed (text : List Char) (urls : List Url) : Prop where
  range : ∀ u ∈ urls, u.start ≤ u.stop ∧ u.stop ≤ text.length
  starts : (urls.map Url.start).Nodup
  disjoint : urls.Pairwise fun u v => ∀ i, ¬ (u.start ≤ i ∧ i < u.stop ∧ v.start ≤ i ∧ i < v.stop)

/-- No URL starts inside another one, and the text rewritten up to the end of a URL has no more bytes than
the original one has characters up to the end of any later URL. -/
def KeepsUp (text : List Char) (urls : List Url) : Prop :=
  ∀ u ∈ urls, ∀ v ∈ urls, u.start < v.start → u.stop ≤ v.start ∧ bytesTo urls 0 text u ≤ v.stop

theorem sortByStart_perm (e : Entities) : (sortByStart e.merge).Perm (e.urls ++ e.media) := by
  refine (List.perm_insertionSort _ _).trans ?_
  unfold Entities.merge
  split
  · rfl
  · exact List.perm_append_comm

theorem ascending_sortByStart {urls : List Url} (h : (urls.map Url.start).Nodup) :
    Ascending (sortByStart urls) := by
  let r (u v : Url) : Prop := u.start ≤ v.start
  have : Std.Total r := ⟨fun u v => Nat.le_total u.start v.start⟩
  have : IsTrans Url r := ⟨fun _ _ _ => Nat.le_trans⟩
  have hle : (sortByStart urls).Pairwise r := List.pairwise_insertionSort r urls
  have hne : (sortByStart urls).Pairwise fun u v => u.start ≠ v.start :=
    List.pairwise_map.mp (((List.perm_insertionSort _ _).map _).nodup_iff.mpr h)
  exact (hle.and hne).imp fun h => Nat.lt_of_le_of_ne h.1 h.2

theorem bytesTo_perm {urls urls' : List Url} (hperm : urls.Perm urls') (h : (urls.map Url.start).Nodup)
    (i : ℕ) (cs : List Char) (u : Url) : bytesTo urls i cs u = bytesTo urls' i cs u := by
  rw [bytesTo, bytesTo, expansion_perm (hperm.filter _) (h.sublist (List.filter_sublist.map _))]

theorem fits_perm {urls urls' : List Url} (hperm : urls.Perm urls') (h : (urls.map Url.start).Nodup)
    (text : List Char) : Fits 0 0 text urls ↔ KeepsUp text urls' := by
  constructor
  · intro hfits u hu v hv huv
    have := hfits.apart u (hperm.mem_iff.mpr hu) v (hperm.mem_iff.mpr hv) huv
    rwa [Nat.zero_add, bytesTo_perm hperm h] at this
  · intro hkeeps
    refine ⟨fun u _ => ⟨Nat.zero_le _, Nat.zero_le _⟩, fun u hu v hv huv => ?_⟩
    rw [Nat.zero_add, bytesTo_perm hperm h]
    exact hkeeps u (hperm.mem_iff.mp hu) v (hperm.mem_iff.mp hv) huv

theorem expandUrls_eq_ok_iff {text out : String} {e : Entities}
    (h : WellFormed text.toList (e.urls ++ e.media)) :
    expandUrls text (some e) = .ok out ↔
      KeepsUp text.toList (e.urls ++ e.media) ∧ out.toList = expansion (e.urls ++ e.media) 0 text.toList := by
  have hperm := sortByStart_perm e
  have hnodup : ((sortByStart e.merge).map Url.start).Nodup := (hperm.map _).nodup_iff.mpr h.starts
  have hasc : Ascending (sortByStart e.merge) :=
    ascending_sortByStart (((List.perm_insertionSort _ _).map _).nodup_iff.mp hnodup)
  have hin : Within 0 text.toList (sortByStart e.merge) := fun u hu => by
    simpa using h.range u (hperm.mem_iff.mp hu)
  have hloop (out : List Char) : expandFrom (sortByStart e.merge) ([] ++ text.toList) (Utf8.len []) 0 = .ok out ↔
      Fits (Utf8.len []) 0 text.toList (sortByStart e.merge) ∧
        out = [] ++ expansion (sortByStart e.merge) 0 text.toList := expandFrom_eq_ok_iff hasc hin
  simp only [List.nil_append, Utf8.len_nil, fits_perm hperm hnodup,
    expansion_perm hperm hnodup] at hloop
  rw [← hloop, expandUrls]
  cases expandFrom (sortByStart e.merge) text.toList 0 0 with
  | error err => simp
  | ok chars =>
    change Except.ok (String.ofList chars) = Except.ok out ↔ Except.ok chars = Except.ok out.toList
    simp [← String.toList_inj]

/-- The expansion is right exactly if the text that has been rewritten never outgrows the next URL's place. -/
theorem expandUrls_eq_expansion_iff {text : String} {urls media : List Url}
    (h : WellFormed text.toList (urls ++ media)) :
    expandUrls text (some ⟨urls, media⟩) =
        .ok (String.ofList (expansion (urls ++ media) 0 text.toList)) ↔
      KeepsUp text.toList (urls ++ media) := by
  simp [expandUrls_eq_ok_iff (e := ⟨urls, media⟩) h]

instance instDecidableKeepsUp (text : List Char) (urls : List Url) : Decidable (KeepsUp text urls) :=
  inferInstanceAs (Decidable (∀ u ∈ urls, ∀ v ∈ urls, _))

def firstLink : Url := ⟨"https://example.com/a-long-address", (0, 14)⟩

def secondLink : Url := ⟨"https://example.com/b", (15, 29)⟩

theorem links_wellFormed : WellFormed "https://t.co/a https://t.co/b".toList [firstLink, secondLink] := by
  refine ⟨by decide, by decide, ?_⟩
  simp [firstLink, secondLink, Url.start, Url.stop]
  omega

/-- An address that is shorter than the link. -/
def briefLink : Url := ⟨"https://a.io", (0, 14)⟩

theorem expandUrls_briefLink :
    WellFormed "https://t.co/a https://t.co/b".toList [secondLink, briefLink] ∧
      expandUrls "https://t.co/a https://t.co/b" (some ⟨[secondLink], [briefLink]⟩) =
        .ok "https://a.io https://example.com/b" := by
  have h : WellFormed "https://t.co/a https://t.co/b".toList ([secondLink] ++ [briefLink]) := by
    refine ⟨by decide, by decide, ?_⟩
    simp [briefLink, secondLink, Url.start, Url.stop]
    omega
  exact ⟨h, (expandUrls_eq_expansion_iff h).mpr (by decide)⟩

/-- Two links, the first of which stands for an address with more bytes than the text has characters. -/
theorem expandUrls_overlap : ¬ ∀ (text : String) (urls media : List Url),
    WellFormed text.toList (urls ++ media) → expandUrls text (some ⟨urls, media⟩) =
      .ok (String.ofList (expansion (urls ++ media) 0 text.toList)) := by
  intro h
  have hok := h "https://t.co/a https://t.co/b" [firstLink, secondLink] [] links_wellFormed
  have herr : expandUrls "https://t.co/a https://t.co/b" (some ⟨[firstLink, secondLink], []⟩) =
    .error (.custom "url indices overlap") := by decide
  rw [herr] at hok
  cases hok

/-- A tweet is decoded exactly if the URLs of its text keep up. -/
theorem exists_tweet_iff {t : TweetData} {e : Entities} (he : t.source.2 = some e)
    (h : WellFormed t.source.1.toList (e.urls ++ e.media)) :
    (∃ tweet, t.tweet = .ok tweet) ↔ KeepsUp t.source.1.toList (e.urls ++ e.media) := by
  have hiff (out : String) : expandUrls t.source.1 (some e) = .ok out ↔
      KeepsUp t.source.1.toList (e.urls ++ e.media) ∧
        out.toList = expansion (e.urls ++ e.media) 0 t.source.1.toList := expandUrls_eq_ok_iff h
  rw [TweetData.tweet, he]
  constructor
  · rintro ⟨tweet, htweet⟩
    cases hout : expandUrls t.source.1 (some e) with
    | error err =>
      rw [hout] at htweet
      cases htweet
    | ok out => exact ((hiff out).mp hout).1
  · intro hkeeps
    rw [(hiff (String.ofList _)).mpr ⟨hkeeps, by rw [String.toList_ofList]⟩]
    exact ⟨_, rfl⟩

end Pipitor.Twitter
