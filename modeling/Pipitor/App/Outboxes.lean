import Pipitor.App.Posting
import Pipitor.App.Sources
import Pipitor.Routing

/-!
# The requests of one entry and of one tweet

A call of `send_entry` spawns an `Update` request for each outbox that the router yields, and one of `retweet` a
`Retweet` request. Neither looks at whether it has met the user before, so that a user gets one request exactly
where the rules of the manifest see to it, which is `Manifest.Disjoint`.
-/

namespace Pipitor.App

open Resumption Twitter

/-- The entry is routed to no user twice, and no call of `send_entry` asks for two updates of one user. -/
def EntryOnce (m : Manifest) (topic : String) (entry : Entry) : Prop :=
  ((Router.fromManifest m).routeEntry topic entry).Nodup ∧
    ∀ (core : Core) (faults : EntryFaults) (e : FeedEntry) (entries : Entries),
      core.router = .fromManifest m → e.toEntry = entry →
        ((sendEntry core faults topic e entries).1.map (·.user)).Nodup

/-- The tweet is routed to no user twice, and no call of `retweet` asks for two retweets by one user. -/
def TweetOnce (m : Manifest) (tweet : Tweet) : Prop :=
  ((Router.fromManifest m).routeTweet tweet).Nodup ∧
    ∀ (core : Core) (faults : Faults) (b : Board) (users : List Int64),
      core.router = .fromManifest m → ((retweet core faults tweet).run b).1 = .ok users → users.Nodup

theorem sendEntry_initial (core : Core) (faults : EntryFaults) (topic : String) (entry : FeedEntry)
    (entries : Entries) :
    (sendEntry core faults topic entry entries).1.map (fun u => .twitter u.user) <+:
      core.router.routeEntry topic entry.toEntry := by
  rcases Posting.run_cases ⟨core, faults, topic, entry⟩ entries with ⟨-, hnil⟩ | ⟨link, hasks, -, heq⟩
  · have hnil : (sendEntry core faults topic entry entries).1 = [] := hnil
    rw [hnil]
    exact List.nil_prefix
  · change (sendEntry core faults topic entry entries).1 = _ at heq
    rw [heq, List.map_map]
    exact Posting.postOutboxes_initial core faults 0 _

theorem retweetOutboxes_users {core : Core} {faults : Faults} {tweet : Int64} {outboxes : List Outbox}
    {db db' : Database} {users : List Int64}
    (h : retweetOutboxes core faults tweet outboxes db = .ok (users, db')) :
    users.map .twitter = outboxes := by
  induction outboxes generalizing db users with
  | nil =>
    cases h
    rfl
  | cons outbox outboxes ih =>
    obtain ⟨user⟩ := outbox
    unfold retweetOutboxes at h
    split at h
    · cases h
    split at h
    · cases h
    split at h
    · cases h
    split at h
    · rename_i users₁ db₂ hrest
      cases h
      rw [List.map_cons, ih hrest]
    · cases h

theorem retweet_users {core : Core} {faults : Faults} {tweet : Tweet} {b : Board} {users : List Int64}
    (h : ((retweet core faults tweet).run b).1 = .ok users) :
    users.map .twitter = core.router.routeTweet tweet := by
  have hsat : Prog.Sat (retweet core faults tweet) b
      (fun users _ => users.map .twitter = core.router.routeTweet tweet) fun _ _ => True := by
    refine Prog.sat_bind (R := fun _ _ => True) ?_ fun _ b' _ => ?_
    · unfold check
      split
      · exact Prog.sat_abort.mpr trivial
      · exact Prog.sat_done.mpr trivial
    · refine Prog.sat_attempt (fun users b'' hrun => ?_) fun _ _ => trivial
      split at hrun
      · rename_i users' db htransaction
        cases hrun
        unfold retweetTransaction at htransaction
        split at htransaction
        · cases htransaction
        split at htransaction
        · rename_i users₁ db₁ houtboxes
          split at htransaction
          · cases htransaction
          · cases htransaction
            exact retweetOutboxes_users houtboxes
        · cases htransaction
      · cases hrun
  exact hsat.of_ok h

theorem entryOnce_iff (m : Manifest) (topic : String) (entry : Entry) :
    EntryOnce m topic entry ↔ m.Disjoint (.feed topic) (·.matchesEntry entry) := by
  rw [← Manifest.scan_nodup_iff, ← Router.routeEntry_fromManifest]
  constructor
  · exact And.left
  · intro h
    refine ⟨h, fun core faults e entries hrouter he => ?_⟩
    have hinitial := sendEntry_initial core faults topic e entries
    rw [hrouter, he] at hinitial
    apply List.Nodup.of_map Outbox.twitter
    rw [List.map_map]
    exact h.sublist hinitial.sublist

theorem tweetOnce_iff (m : Manifest) (tweet : Tweet) :
    TweetOnce m tweet ↔ m.Disjoint (.twitter tweet.user) (·.matchesTweet tweet) := by
  rw [← Manifest.scan_nodup_iff, ← Router.routeTweet_fromManifest]
  constructor
  · exact And.left
  · intro h
    refine ⟨h, fun core faults b users hrouter hok => ?_⟩
    have husers := retweet_users hok
    rw [hrouter] at husers
    apply List.Nodup.of_map Outbox.twitter
    rw [husers]
    exact h

/-- **One request for each user.** It is the manifest that decides. -/
theorem once_iff_disjoint (m : Manifest) :
    (∀ topic entry, EntryOnce m topic entry ↔ m.Disjoint (.feed topic) (·.matchesEntry entry)) ∧
      ∀ tweet, TweetOnce m tweet ↔ m.Disjoint (.twitter tweet.user) (·.matchesTweet tweet) :=
  ⟨entryOnce_iff m, tweetOnce_iff m⟩

/-- Two rules that share their topics and their outbox. -/
def twoRules : Manifest :=
  let rule : Rule := ⟨⟨none, none, [.twitter 1]⟩, [.twitter 10, .feed "https://example.com/feed"]⟩
  ⟨none, [rule, rule], none, some ⟨⟨"key", "secret"⟩, 1, false, none⟩, false⟩

/-- User 1 posts the entry twice, and retweets the tweet twice. -/
theorem not_once_twoRules :
    ((sendEntry (sampleCore twoRules) (fun _ => false) "https://example.com/feed" Posting.sampleEntry
        .empty).1.map (·.user) = [1, 1] ∧
      ¬ EntryOnce twoRules "https://example.com/feed" Posting.sampleEntry.toEntry) ∧
    ((retweet (sampleCore twoRules) Faults.none sampleTweet).run ⟨sampleDatabase, [], []⟩).1 = .ok [1, 1] ∧
      ¬ TweetOnce twoRules sampleTweet := by
  refine ⟨⟨by decide, fun h => ?_⟩, rfl, fun h => ?_⟩
  · exact absurd h.1 (by decide)
  · exact absurd h.1 (by decide)

end Pipitor.App
