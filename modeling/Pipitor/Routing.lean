import Mathlib.Data.List.Nodup
import Pipitor.Router

/-!
# The index of the router

`Router::from_manifest` groups the routes of all rules by topic. `agrees_scan` says that what it routes is what
a walk through the rules would give, in the same order and as often, and `scan_nodup_iff` for which manifests
no outbox occurs twice in that.
-/

namespace Pipitor

/-! ### A walk through the rules -/

/-- The filter is absent or matches, and the exclude is absent or does not match. -/
def Route.Accepts (route : Route) (isMatch : Filter → Bool) : Prop :=
  (∀ f, route.filter = some f → isMatch f = true) ∧ ∀ e, route.exclude = some e → isMatch e = false

theorem Route.accepts_iff {route : Route} {isMatch : Filter → Bool} : route.Accepts isMatch ↔
    (route.filter.all isMatch && route.exclude.all fun e => !isMatch e) = true := by
  unfold Accepts
  cases route.filter <;> cases route.exclude <;> simp

instance (route : Route) (isMatch : Filter → Bool) : Decidable (route.Accepts isMatch) :=
  decidable_of_iff _ Route.accepts_iff.symm

/-- What a rule gives: its outboxes, once for each time that it lists the topic. -/
def Rule.scan (rule : Rule) (topic : TopicId) (isMatch : Filter → Bool) : List Outbox :=
  rule.topics.flatMap fun t => if t = topic ∧ rule.route.Accepts isMatch then rule.route.outbox else []

/-- What the rules give, one after the other. -/
def Manifest.scan (m : Manifest) (topic : TopicId) (isMatch : Filter → Bool) : List Outbox :=
  m.rule.flatMap fun rule => rule.scan topic isMatch

namespace Router

/-! ### The index -/

/-- The routes of a rule, once for each time that it lists the topic. -/
def routesOf (topic : TopicId) (rule : Rule) : List Route :=
  (rule.topics.filter fun t => t = topic).map fun _ => rule.route

variable {r : Router} {topic : TopicId}

theorem map_append (t : TopicId) (route : Route) : (r.append t route).map topic =
    if t = topic then some ((r.map topic).getD [] ++ [route]) else r.map topic := by
  by_cases h : t = topic
  · subst h
    simp [append]
  · rw [if_neg h]
    exact Function.update_of_ne (Ne.symm h) _ _

theorem getD_foldl_append (topics : List TopicId) (route : Route) (r : Router) :
    ((topics.foldl (fun r t => r.append t route) r).map topic).getD [] =
      (r.map topic).getD [] ++ (topics.filter fun t => t = topic).map fun _ => route := by
  induction topics generalizing r with
  | nil => simp
  | cons t topics ih =>
    rw [List.foldl_cons, ih, map_append]
    by_cases h : t = topic
    · simp [h]
    · simp [h]

theorem isSome_foldl_append (topics : List TopicId) (route : Route) (r : Router) :
    ((topics.foldl (fun r t => r.append t route) r).map topic).isSome =
      ((r.map topic).isSome || topics.any fun t => t = topic) := by
  induction topics generalizing r with
  | nil => simp
  | cons t topics ih =>
    rw [List.foldl_cons, ih, map_append]
    by_cases h : t = topic
    · simp [h]
    · simp [h]

theorem getD_get_fromManifest (m : Manifest) (topic : TopicId) :
    ((fromManifest m).get topic).getD [] = m.rule.flatMap (routesOf topic) := by
  have hrules : ∀ (rules : List Rule) (r : Router),
      ((rules.foldl (fun r rule => rule.topics.foldl (fun r t => r.append t rule.route) r) r).map topic).getD [] =
        (r.map topic).getD [] ++ rules.flatMap (routesOf topic) := by
    intro rules
    induction rules with
    | nil => simp
    | cons rule rules ih =>
      intro r
      rw [List.foldl_cons, ih, getD_foldl_append, List.flatMap_cons, List.append_assoc]
      rfl
  exact hrules m.rule new

theorem isSome_get_fromManifest (m : Manifest) (topic : TopicId) :
    ((fromManifest m).get topic).isSome = m.hasTopic topic := by
  have hrules : ∀ (rules : List Rule) (r : Router),
      ((rules.foldl (fun r rule => rule.topics.foldl (fun r t => r.append t rule.route) r) r).map topic).isSome =
        ((r.map topic).isSome || (rules.flatMap (·.topics)).any fun t => t = topic) := by
    intro rules
    induction rules with
    | nil => simp
    | cons rule rules ih =>
      intro r
      rw [List.foldl_cons, ih, isSome_foldl_append, List.flatMap_cons, List.any_append, Bool.or_assoc]
  exact hrules m.rule new

theorem flatMap_routesOf (rule : Rule) (topic : TopicId) (isMatch : Filter → Bool) :
    ((routesOf topic rule).filter fun route =>
      route.filter.all isMatch && route.exclude.all fun e => !isMatch e).flatMap (·.outbox) =
        rule.scan topic isMatch := by
  unfold routesOf Rule.scan
  induction rule.topics with
  | nil => rfl
  | cons t topics ih =>
    rw [List.flatMap_cons, ← ih]
    by_cases ht : t = topic
    · by_cases haccepts : rule.route.Accepts isMatch
      · simp [ht, haccepts, Route.accepts_iff.mp haccepts]
      · have hnot := Bool.eq_false_iff.mpr fun h => haccepts (Route.accepts_iff.mpr h)
        simp [ht, haccepts, hnot]
    · simp [ht]

theorem flatMap_get_fromManifest (m : Manifest) (topic : TopicId) (isMatch : Filter → Bool) :
    ((((fromManifest m).get topic).getD []).filter fun route =>
      route.filter.all isMatch && route.exclude.all fun e => !isMatch e).flatMap (·.outbox) =
        m.scan topic isMatch := by
  rw [getD_get_fromManifest, List.filter_flatMap, List.flatMap_assoc]
  unfold Manifest.scan
  congr 1
  funext rule
  exact flatMap_routesOf rule topic isMatch

theorem routeEntry_fromManifest (m : Manifest) (topic : String) (entry : Entry) :
    (fromManifest m).routeEntry topic entry = m.scan (.feed topic) (·.matchesEntry entry) :=
  flatMap_get_fromManifest m (.feed topic) (·.matchesEntry entry)

theorem routeTweet_fromManifest (m : Manifest) (tweet : Tweet) :
    (fromManifest m).routeTweet tweet = m.scan (.twitter tweet.user) (·.matchesTweet tweet) :=
  flatMap_get_fromManifest m (.twitter tweet.user) (·.matchesTweet tweet)

/-- **The index agrees with a walk through the rules.** -/
theorem agrees_scan (m : Manifest) :
    (∀ topic entry, (fromManifest m).routeEntry topic entry =
        m.scan (.feed topic) (·.matchesEntry entry)) ∧
      (∀ tweet, (fromManifest m).routeTweet tweet =
        m.scan (.twitter tweet.user) (·.matchesTweet tweet)) ∧
      ∀ topic, (∃ routes, (fromManifest m).get topic = some routes) ↔ m.hasTopic topic = true := by
  refine ⟨routeEntry_fromManifest m, routeTweet_fromManifest m, fun topic => ?_⟩
  rw [← isSome_get_fromManifest, Option.isSome_iff_exists]

end Router

/-! ### Outboxes that occur twice -/

/-- Each rule that has the topic and accepts lists no outbox twice, and the topic once or no outbox at all; no two
such rules share an outbox. -/
structure Manifest.Disjoint (m : Manifest) (topic : TopicId) (isMatch : Filter → Bool) : Prop where
  within : ∀ rule ∈ m.rule, topic ∈ rule.topics → rule.route.Accepts isMatch →
    rule.route.outbox.Nodup ∧ (rule.topics.count topic = 1 ∨ rule.route.outbox = [])
  between : m.rule.Pairwise fun rule rule' =>
    topic ∈ rule.topics → rule.route.Accepts isMatch → topic ∈ rule'.topics → rule'.route.Accepts isMatch →
      rule.route.outbox.Disjoint rule'.route.outbox

variable {topic : TopicId} {isMatch : Filter → Bool}

theorem Rule.mem_scan {rule : Rule} {outbox : Outbox} : outbox ∈ rule.scan topic isMatch ↔
    topic ∈ rule.topics ∧ rule.route.Accepts isMatch ∧ outbox ∈ rule.route.outbox := by
  unfold scan
  simp only [List.mem_flatMap, List.mem_ite_nil_right]
  constructor
  · rintro ⟨t, ht, ⟨rfl, haccepts⟩, houtbox⟩
    exact ⟨ht, haccepts, houtbox⟩
  · rintro ⟨ht, haccepts, houtbox⟩
    exact ⟨topic, ht, ⟨rfl, haccepts⟩, houtbox⟩

/-- The outboxes that are given for each occurrence of the topic are those of the rule. -/
theorem Rule.scan_eq {rule : Rule} (h : rule.route.Accepts isMatch) : rule.scan topic isMatch =
    (List.replicate (rule.topics.count topic) rule.route.outbox).flatten := by
  unfold scan
  induction rule.topics with
  | nil => rfl
  | cons t topics ih =>
    rw [List.flatMap_cons, ih]
    by_cases ht : t = topic
    · simp [ht, h, List.replicate_succ]
    · simp [ht]

theorem nodup_flatten_replicate {α : Type} (n : ℕ) (l : List α) :
    (List.replicate n l).flatten.Nodup ↔ n = 0 ∨ l.Nodup ∧ (n = 1 ∨ l = []) := by
  match n with
  | 0 => simp
  | 1 => simp
  | n + 2 =>
    constructor
    · intro h
      rw [List.replicate_succ, List.flatten_cons, List.replicate_succ, List.flatten_cons] at h
      have hself : l.Disjoint (l ++ (List.replicate n l).flatten) := (List.nodup_append'.mp h).2.2
      refine Or.inr ⟨(List.nodup_append'.mp h).1, Or.inr (List.eq_nil_iff_forall_not_mem.mpr fun a ha => ?_)⟩
      exact hself ha (List.mem_append_left _ ha)
    · rintro (h | ⟨-, h | rfl⟩)
      · omega
      · omega
      · simp

theorem Rule.scan_nodup_iff (rule : Rule) : (rule.scan topic isMatch).Nodup ↔
    (topic ∈ rule.topics → rule.route.Accepts isMatch →
      rule.route.outbox.Nodup ∧ (rule.topics.count topic = 1 ∨ rule.route.outbox = [])) := by
  by_cases haccepts : rule.route.Accepts isMatch
  · rw [scan_eq haccepts, nodup_flatten_replicate, List.count_eq_zero]
    tauto
  · have hnil : rule.scan topic isMatch = [] :=
      List.eq_nil_iff_forall_not_mem.mpr fun outbox h => haccepts (mem_scan.mp h).2.1
    simp [hnil, haccepts]

/-- **No outbox occurs twice** exactly where the rules are disjoint. -/
theorem Manifest.scan_nodup_iff (m : Manifest) : (m.scan topic isMatch).Nodup ↔ m.Disjoint topic isMatch := by
  unfold scan
  rw [List.nodup_flatMap]
  have hdisjoint : ∀ rule rule' : Rule,
      (rule.scan topic isMatch).Disjoint (rule'.scan topic isMatch) ↔
        (topic ∈ rule.topics → rule.route.Accepts isMatch → topic ∈ rule'.topics →
          rule'.route.Accepts isMatch → rule.route.outbox.Disjoint rule'.route.outbox) := by
    intro rule rule'
    constructor
    · intro h ht haccepts ht' haccepts' outbox houtbox houtbox'
      exact h (Rule.mem_scan.mpr ⟨ht, haccepts, houtbox⟩) (Rule.mem_scan.mpr ⟨ht', haccepts', houtbox'⟩)
    · intro h outbox houtbox houtbox'
      obtain ⟨ht, haccepts, hmem⟩ := Rule.mem_scan.mp houtbox
      obtain ⟨ht', haccepts', hmem'⟩ := Rule.mem_scan.mp houtbox'
      exact h ht haccepts ht' haccepts' hmem hmem'
  constructor
  · rintro ⟨hwithin, hbetween⟩
    refine ⟨fun rule hrule => (Rule.scan_nodup_iff rule).mp (hwithin rule hrule), hbetween.imp fun h => ?_⟩
    exact (hdisjoint _ _).mp h
  · rintro ⟨hwithin, hbetween⟩
    refine ⟨fun rule hrule => (Rule.scan_nodup_iff rule).mpr (hwithin rule hrule), hbetween.imp fun h => ?_⟩
    exact (hdisjoint _ _).mpr h

end Pipitor
