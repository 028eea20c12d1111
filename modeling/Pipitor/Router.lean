import Mathlib.Logic.Function.Basic
import Pipitor.Manifest

/-!
# The router

`router.rs`: the routes of each topic, in the order of the rules, and the outboxes they lead to. The
`HashMap` is a function; `append` is its `entry(..).or_insert_with(..).push(..)`.
-/

namespace Pipitor

structure Router where
  map : TopicId → Option (List Route)

namespace Router

def new : Router := ⟨fun _ => none⟩

def append (r : Router) (topic : TopicId) (route : Route) : Router :=
  ⟨Function.update r.map topic (some ((r.map topic).getD [] ++ [route]))⟩

def fromManifest (manifest : Manifest) : Router :=
  manifest.rule.foldl (fun r rule => rule.topics.foldl (fun r topic => r.append topic rule.route) r) new

def get (r : Router) (topic : TopicId) : Option (List Route) := r.map topic

def routeEntry (r : Router) (topic : String) (entry : Entry) : List Outbox :=
  (((r.get (.feed topic)).getD []).filter fun route =>
    route.filter.all (·.matchesEntry entry) && route.exclude.all fun e => !e.matchesEntry entry).flatMap
      (·.outbox)

def routeTweet (r : Router) (tweet : Tweet) : List Outbox :=
  (((r.get (.twitter tweet.user)).getD []).filter fun route =>
    route.filter.all (·.matchesTweet tweet) && route.exclude.all fun e => !e.matchesTweet tweet).flatMap
      (·.outbox)

/-- The router can yield the outbox of this user. -/
def Yields (r : Router) (user : Int64) : Prop :=
  ∃ topic, ∃ route ∈ (r.get topic).getD [], .twitter user ∈ route.outbox

variable {r : Router} {user : Int64}

theorem yields_of_routeEntry {topic : String} {entry : Entry} (h : .twitter user ∈ r.routeEntry topic entry) :
    r.Yields user := by
  obtain ⟨route, hroute, huser⟩ := List.mem_flatMap.mp h
  exact ⟨_, route, (List.mem_filter.mp hroute).1, huser⟩

theorem yields_of_routeTweet {tweet : Tweet} (h : .twitter user ∈ r.routeTweet tweet) : r.Yields user := by
  obtain ⟨route, hroute, huser⟩ := List.mem_flatMap.mp h
  exact ⟨_, route, (List.mem_filter.mp hroute).1, huser⟩

theorem yields_append {topic : TopicId} {route : Route} (h : (r.append topic route).Yields user) :
    r.Yields user ∨ .twitter user ∈ route.outbox := by
  obtain ⟨topic', route', hroute, huser⟩ := h
  unfold get append at hroute
  dsimp only at hroute
  by_cases heq : topic' = topic
  · subst heq
    rw [Function.update_self, Option.getD_some] at hroute
    rcases List.mem_append.mp hroute with hroute | hroute
    · exact .inl ⟨topic', route', hroute, huser⟩
    · obtain rfl := List.mem_singleton.mp hroute
      exact .inr huser
  · rw [Function.update_of_ne heq] at hroute
    exact .inl ⟨topic', route', hroute, huser⟩

theorem yields_fromManifest {manifest : Manifest} (h : (fromManifest manifest).Yields user) :
    user ∈ manifest.twitterOutboxes := by
  have htopics : ∀ (route : Route) (topics : List TopicId) (r : Router),
      (topics.foldl (fun r topic => r.append topic route) r).Yields user →
        r.Yields user ∨ .twitter user ∈ route.outbox := by
    intro route topics
    induction topics with
    | nil => exact fun r h => .inl h
    | cons topic topics ih => exact fun r h => (ih _ h).elim yields_append .inr
  have hrules : ∀ (rules : List Rule) (r : Router),
      (rules.foldl (fun r rule => rule.topics.foldl (fun r topic => r.append topic rule.route) r) r).Yields user →
        r.Yields user ∨ ∃ rule ∈ rules, .twitter user ∈ rule.route.outbox := by
    intro rules
    induction rules with
    | nil => exact fun r h => .inl h
    | cons rule rules ih =>
      intro r h
      rcases ih _ h with h | ⟨rule', hrule', huser⟩
      · exact (htopics rule.route rule.topics r h).imp_right fun huser => ⟨rule, by simp, huser⟩
      · exact .inr ⟨rule', List.mem_cons_of_mem _ hrule', huser⟩
  rcases hrules manifest.rule new h with ⟨topic, route, hroute, -⟩ | ⟨rule, hrule, huser⟩
  · cases hroute
  · exact List.mem_map.mpr ⟨_, List.mem_flatMap.mpr ⟨rule, hrule, huser⟩, rfl⟩

end Router

end Pipitor
